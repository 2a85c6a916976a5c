import Turnstile.Proofs.Once.Conduct
import Turnstile.Proofs.Run.Account

/-!
# Callers that share a store

Any number of callers execute requests over one local store, each with settings,
a request and a handler of its own.  Every caller is a party to the run, with
the rules of its key as its pact.

Main results:

- Theorem `account`: every chronicle of callers that must not go on without the
  store has an account.
- Theorem `began_of_cleared`: a caller that is cleared runs its handler.
- Theorem `Account.let_go_or_expired`: a lock is taken again only after its
  holder has let go of it, with nothing left to be written, or after it expired.
-/

namespace Turnstile.Once

open Run
open Store (Answer Call Token)

/-! ## Callers -/

/-- Somebody who has a request executed. -/
structure Caller where
  config : Config
  request : Request
  /-- The request as it is handed to the handler. -/
  http : Http.Request
  handler : Handler
  /-- When the caller starts, by the monotonic clock. -/
  time : Nat
  /-- When the caller is cancelled, if it has not ended by then. -/
  cancelAt : Option Nat

namespace Caller

/-- What the caller runs. -/
def program (c : Caller) : Program Result :=
  execute c.config c.request (served c.http)

/-- The caller as a task. -/
def task (c : Caller) : Run.Task Result :=
  Run.Task.start c.program c.handler c.time c.cancelAt

/-- The key of the operation that the caller has executed at most once, if it is
guarded at all. -/
def key? (c : Caller) : Option OperationKey :=
  match c.request.token with
  | none => none
  | some token =>
      if c.config.appliesTo c.request.method ∧ validateToken token = none then
        some (c.config.scheme.key token c.request.method c.request.path c.request.body)
      else none

/-- What a caller that is not guarded may do: anything but use the store. -/
def freeRules : Pact Result where
  may _ n :=
    match n with
    | .sent _ => False
    | .held _ => False
    | _ => True
  ends _ result :=
    match result with
    | .ok (.bypassed _) => True
    | .error (.invalidKey _) => True
    | _ => False

/-- The rules of a caller. -/
def rules (c : Caller) : Pact Result :=
  match c.key? with
  | some key => Once.rules c.config key
  | none => freeRules

/-- A caller with a key has its request executed under it. -/
theorem program_of_key {c : Caller} {key : OperationKey} (h : c.key? = some key) :
    c.program = guarded c.config key (served c.http) := by
  unfold key? at h
  unfold program execute
  cases htoken : c.request.token with
  | none => simp [htoken] at h
  | some token =>
      simp only [htoken] at h ⊢
      by_cases happlies : c.config.appliesTo c.request.method ∧ validateToken token = none
      · rw [if_pos happlies, Option.some.injEq] at h
        rw [if_pos happlies.1, happlies.2, h]
      · rw [if_neg happlies] at h
        exact nomatch h

/-- A caller without a key keeps the rules of those who are free. -/
theorem free_keeps {c : Caller} (h : c.key? = none) :
    KeepsFromStart c.handler freeRules c.program := by
  have hbypass : Keeps c.handler freeRules [.resumed] (bypass (served c.http)) :=
    ⟨trivial, trivial, fun _ _ => trivial⟩
  refine ⟨trivial, ?_⟩
  unfold key? at h
  unfold program execute
  cases htoken : c.request.token with
  | none => exact hbypass
  | some token =>
      simp only [htoken] at h ⊢
      by_cases happlies : c.config.appliesTo c.request.method = true
      · rw [if_pos happlies]
        cases hfault : validateToken token with
        | some fault => exact ⟨trivial, trivial⟩
        | none =>
            rw [if_pos ⟨happlies, hfault⟩] at h
            exact nomatch h
      · rw [if_neg happlies]
        exact hbypass

/-- A caller that must not go on without the store keeps its rules. -/
theorem keeps (c : Caller) (hclosed : c.config.failurePolicy = .failClosed) :
    KeepsFromStart c.handler c.rules c.program := by
  unfold rules
  cases hkey : c.key? with
  | none => exact free_keeps hkey
  | some key =>
      rw [program_of_key hkey]
      exact guarded_keeps hclosed c.http

end Caller

/-- A run of callers over one store without entries. -/
def begin (clocks : Clocks) (plan : Plan) (callers : List Caller) : State Result :=
  ⟨.start clocks plan, callers.map Caller.task, []⟩

/-- The key of the operation of the `i`-th caller, if that is guarded. -/
def keyOf (callers : List Caller) (i : Nat) : Option OperationKey :=
  callers[i]?.bind Caller.key?

/-! ## Accounts -/

/-- The caller as a party that keeps the rules of its key. -/
def Caller.party (c : Caller) : Party Result :=
  ⟨c.program, c.handler, c.time, c.cancelAt, c.rules⟩

/-- What can be said of every log of callers. -/
abbrev Account (callers : List Caller) (log : Log) : Prop :=
  Run.Account (callers.map Caller.party) log

/-- Every caller begins with its own program. -/
theorem begins (clocks : Clocks) (plan : Plan) (callers : List Caller) :
    Begins (callers.map Caller.party) (begin clocks plan callers) :=
  .of_members _ _ rfl rfl rfl

/-- The party of a caller stands where the caller does. -/
theorem getElem?_party {callers : List Caller} {i : Nat} {c : Caller} (hc : callers[i]? = some c) :
    (callers.map Caller.party)[i]? = some c.party := by
  simp [hc]

/-- Every party is that of a caller. -/
theorem exists_caller {callers : List Caller} {i : Nat} {p : Party Result}
    (hp : (callers.map Caller.party)[i]? = some p) : ∃ c, callers[i]? = some c ∧ p = c.party := by
  rw [List.getElem?_map] at hp
  rcases Option.map_eq_some_iff.1 hp with ⟨c, hc, rfl⟩
  exact ⟨c, hc, rfl⟩

section

variable {clocks : Clocks} {plan : Plan} {callers : List Caller}

/-- Where everybody fails closed, every party keeps its rules. -/
theorem parties_keep (hclosed : ∀ c ∈ callers, c.config.failurePolicy = .failClosed) :
    ∀ p ∈ callers.map Caller.party, p.Keeps :=
  List.forall_mem_map.2 fun c hc => c.keeps (hclosed c hc)

/-- Every chronicle of callers that must not go on without the store has an
account. -/
theorem account (hclosed : ∀ c ∈ callers, c.config.failurePolicy = .failClosed)
    (happenings : List Happening) :
    Account callers (Chronicle.of (begin clocks plan callers) happenings).log :=
  Run.account (begins clocks plan callers) (parties_keep hclosed) happenings

/-- A caller that is cleared runs its handler. -/
theorem began_of_cleared {happenings : List Happening} {i : Nat} {c : Caller} {key : OperationKey}
    {token : Token} {notes : List Note} (hc : callers[i]? = some c) (hkey : c.key? = some key)
    (hcleared : Cleared c.config key token notes)
    (hnotes : notes <:+ own i (Chronicle.of (begin clocks plan callers) happenings).log) :
    .began c.http :: notes <:+ own i (Chronicle.of (begin clocks plan callers) happenings).log := by
  have hbegins := begins clocks plan callers
  have htask : (begin clocks plan callers).tasks[i]? = some c.task := by
    rw [hbegins.tasks]
    simp [hc]
    rfl
  have hpath : Path c.task.handler c.task.stage notes
      ⟨.going (runHandler c.config key (served c.http) token),
        some (.releaseLock key.lock token)⟩ := by
    have hstage : c.task.stage = ⟨.resting (guarded c.config key (served c.http)), none⟩ := by
      rw [← Caller.program_of_key hkey]
      rfl
    rw [hstage]
    exact cleared_path hcleared
  rcases (chronicle_path hbegins.fits happenings).goes_on htask hpath hnotes with
    ⟨n, _, hn, hnext⟩
  have hserves : runHandler c.config key (served c.http) token =
      .serve c.http fun response => capture c.config key response >>= fun response =>
        release c.config key token >>= fun _ => .done (.ok (.executed response)) := rfl
  rw [hserves] at hn
  cases hn
  exact hnext

end

namespace Account

variable {callers : List Caller} {log past : Log}

/-- An account of a log is one of every earlier log. -/
theorem of_suffix (h : Account callers log) (hs : past <:+ log) : Account callers past :=
  Run.Account.of_suffix h hs

/-- Every caller keeps its rules. -/
theorem lawful (h : Account callers log) {i : Nat} {c : Caller} (hc : callers[i]? = some c) :
    Lawful c.handler c.rules (own i log) :=
  Run.Account.lawful h i c.party (getElem?_party hc)

/-! ## What a caller did -/

/-- What a caller noted it did by its rules. -/
theorem rules_allow (h : Account callers log) {i : Nat} {n : Note} {older : List Note}
    (hn : n :: older <:+ own i log) (hdeed : n.IsDeed) :
    ∃ c, callers[i]? = some c ∧ c.rules.may older n := by
  rcases h.deed_allowed hn hdeed with ⟨p, hp, hmay⟩
  rcases exists_caller hp with ⟨c, hc, rfl⟩
  exact ⟨c, hc, hmay⟩

/-- A caller that uses the store is guarded, and does so by the rules of its
key. -/
theorem guarded_allowed (h : Account callers log) {i : Nat} {n : Note} {older : List Note}
    (hn : n :: older <:+ own i log) (hdeed : n.IsDeed) (hfree : ¬ Caller.freeRules.may older n) :
    ∃ c key, callers[i]? = some c ∧ c.key? = some key ∧ mayDo c.config key older n := by
  rcases h.rules_allow hn hdeed with ⟨c, hc, hmay⟩
  unfold Caller.rules at hmay
  cases hkey : c.key? with
  | none =>
      rw [hkey] at hmay
      exact absurd hmay hfree
  | some key =>
      rw [hkey] at hmay
      exact ⟨c, key, hc, hkey, hmay⟩

/-! ## Who held a lock -/

/-- A caller that was given a token was told so. -/
theorem exists_given {cfg : Config} {key : OperationKey} {token : Token} {i : Nat}
    (h : WasGiven cfg key token (own i log)) :
    ∃ t past, Tells log
      ⟨t, some i, .done (.acquireLock key.lock cfg.lockTtl) (.token (some token))⟩ past :=
  exists_tells_of_mem h

/-- A caller takes locks for as long as its settings say. -/
theorem lockTtl_eq (h : Account callers log) {i t : Nat} {lock : String} {ttl : Span}
    {answer : Answer} (htold : Tells log ⟨t, some i, .done (.acquireLock lock ttl) answer⟩ past) :
    ∃ c, callers[i]? = some c ∧ ttl = c.config.lockTtl := by
  rcases h.answers htold.own with ⟨_, _, older, hown⟩
  have hsent : .sent (.acquireLock lock ttl) :: older <:+ own i log := by
    rw [← hown]
    exact own_suffix i htold.suffix
  rcases h.guarded_allowed hsent trivial id with ⟨c, key, hc, _, _, httl⟩
  exact ⟨c, hc, httl⟩

/-- A token is given once. -/
theorem same_token (h : Account callers log) {a a' : Nat} {who who' : Option Nat}
    {lock lock' : String} {ttl ttl' : Span} {token : Token} {past' : Log}
    (htold : Tells log ⟨a, who, .done (.acquireLock lock ttl) (.token (some token))⟩ past)
    (htold' : Tells log ⟨a', who', .done (.acquireLock lock' ttl') (.token (some token))⟩ past') :
    who = who' := by
  rcases h.ran with ⟨store, now, hran⟩
  exact (given_once hran htold htold').1

/-- The holder of a lock lets go of it: it sends the release, or leaves it behind. -/
def LetsGo (lock : String) (token : Token) (n : Note) : Prop :=
  n = .sent (.releaseLock lock token) ∨ n = .quit (some (.releaseLock lock token))

/-- The `i`-th caller was given the token of the lock, and let go of it with
nothing left to be written. -/
def LetGo (callers : List Caller) (i : Nat) (lock : String) (token : Token) (notes : List Note) :
    Prop :=
  ∃ c key n older, callers[i]? = some c ∧ c.key? = some key ∧ lock = key.lock ∧
    n :: older <:+ notes ∧ LetsGo lock token n ∧ WasGiven c.config key token older ∧
    Settled c.config key older

/-- What a caller leaves behind is the release of a lock that it was given, with
nothing left to be written. -/
theorem release_of_quit (h : Account callers log) {t i : Nat} {call : Call}
    (hquit : Tells log ⟨t, some i, .quit (some call)⟩ past) :
    ∃ c key token, callers[i]? = some c ∧ c.key? = some key ∧ call = .releaseLock key.lock token ∧
      WasGiven c.config key token (own i past) ∧ Settled c.config key (own i past) := by
  have hown := hquit.own
  rcases h.held_of_quit hquit with ⟨_, older, _, hheld, _⟩
  have hheldNow := hheld.trans ((List.suffix_cons _ _).trans hown)
  rcases h.guarded_allowed hheldNow trivial id with ⟨c, key, hc, hkey, token, hcall, hgiven⟩
  rcases h.rules_allow hown trivial with ⟨c', hc', hmay⟩
  have hsame : c = c' := Option.some.inj (hc.symm.trans hc')
  subst hsame
  unfold Caller.rules at hmay
  rw [hkey] at hmay
  have hgivenLater : WasGiven c.config key token (own i past) :=
    List.IsSuffix.mem hgiven ((List.suffix_cons _ _).trans hheld)
  exact ⟨c, key, token, hc, hkey, hcall, hgivenLater, hmay⟩

/-- A lock is released only after the caller that was given its token has let go
of it. -/
theorem let_go_of_released (h : Account callers log) {t : Nat} {who : Option Nat} {lock : String}
    {token : Token} {answer : Answer}
    (htold : Tells log ⟨t, who, .done (.releaseLock lock token) answer⟩ past) :
    ∃ i, LetGo callers i lock token (own i past) := by
  have hpast := h.of_suffix htold.suffix
  rcases h.origin htold with ⟨i, _, older, _, _, hown, _⟩ | ⟨t', i, behind, hquit⟩
  · have hsent : .sent (.releaseLock lock token) :: older <:+ own i past := ⟨[], hown.symm⟩
    rcases hpast.guarded_allowed hsent trivial id with ⟨c, key, hc, hkey, hlock, hgiven, hsettled⟩
    exact ⟨i, c, key, _, older, hc, hkey, hlock, hsent, Or.inl rfl, hgiven, hsettled⟩
  · rcases hpast.release_of_quit hquit with ⟨c, key, token', hc, hkey, hcall, hgiven, hsettled⟩
    simp only [Call.releaseLock.injEq] at hcall
    rcases hcall with ⟨hlock, rfl⟩
    exact ⟨i, c, key, _, own i behind, hc, hkey, hlock, hquit.own, Or.inr rfl, hgiven, hsettled⟩

/-- Every call of a caller other than a release was begun by it, by the rules of
its key. -/
theorem sent_of_done (h : Account callers log) {t : Nat} {who : Option Nat} {call : Call}
    {answer : Answer} (hcall : ∀ lock token, call ≠ .releaseLock lock token)
    (htold : Tells log ⟨t, who, .done call answer⟩ past) :
    ∃ i c key older, who = some i ∧ callers[i]? = some c ∧ c.key? = some key ∧
      own i past = .sent call :: older ∧ mayDo c.config key older (.sent call) := by
  rcases h.origin htold with ⟨i, _, older, hwho, _, hown, _⟩ | ⟨t', i, behind, hquit⟩
  · have hsent : .sent call :: older <:+ own i past := ⟨[], hown.symm⟩
    rcases (h.of_suffix htold.suffix).guarded_allowed hsent trivial id with
      ⟨c, key, hc, hkey, hmay⟩
    exact ⟨i, c, key, older, hwho, hc, hkey, hown, hmay⟩
  · rcases (h.of_suffix htold.suffix).release_of_quit hquit with ⟨_, key, token, _, _, heq, _⟩
    exact absurd heq (hcall key.lock token)

/-- A lock is taken again only after its holder has let go of it, with nothing
left to be written, or after it expired. -/
theorem let_go_or_expired (h : Account callers log) {a a' i : Nat} {who : Option Nat}
    {lock : String} {ttl ttl' : Span} {token token' : Token} {older : Log}
    (hagain : Tells log ⟨a', who, .done (.acquireLock lock ttl') (.token (some token'))⟩ past)
    (hfirst : Tells past ⟨a, some i, .done (.acquireLock lock ttl) (.token (some token))⟩ older) :
    LetGo callers i lock token (own i past) ∨ a + ttl.nanos ≤ a' := by
  rcases h.ran with ⟨store, now, hran⟩
  rcases hran.released_or_expired hagain.deed hfirst.deed ⟨rfl, rfl⟩ ⟨rfl, rfl⟩ with
    ⟨r, behind, hr, _, hcall⟩ | hexpired
  · rcases exists_of_deed hr with ⟨who', past', hreleased, _⟩
    rw [hcall] at hreleased
    have hpast := h.of_suffix hagain.suffix
    rcases hpast.let_go_of_released hreleased with
      ⟨j, c, key, n, earlier, hc, hkey, hlock, hn, hgo, hgiven, hsettled⟩
    have hgivenNow : WasGiven c.config key token (own j past) :=
      List.IsSuffix.mem hgiven ((List.suffix_cons _ _).trans
        (hn.trans (own_suffix j hreleased.suffix)))
    rcases exists_given hgivenNow with ⟨t, past'', hgivenTold⟩
    have hij := hpast.same_token hfirst hgivenTold
    simp only [Option.some.injEq] at hij
    subst hij
    exact Or.inl ⟨c, key, n, earlier, hc, hkey, hlock,
      hn.trans (own_suffix i hreleased.suffix), hgo, hgiven, hsettled⟩
  · exact Or.inr hexpired

end Account

end Turnstile.Once
