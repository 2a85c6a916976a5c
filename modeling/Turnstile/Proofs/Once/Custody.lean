import Turnstile.Proofs.Once.Callers
import Turnstile.Proofs.Run.Calls

/-!
# The custody of a lock

A caller that is told the token of a lock has to see to it that the lock is
released.  At first it owes the release, which is begun for it if it breaks off;
then it takes the release upon itself, and makes no other call after it.  There
is no step on this way at which nobody answers for the release, and none at which
two do.

This is a matter of the notes of one caller, and holds under either policy.

Main results:

- Theorem `Caller.keeps_custody`: every caller keeps custody of its lock.
- Theorem `InCustody.releases`: the calls of a caller that was told a token and has
  come to an end are some that are no releases, and then one release.
-/

namespace Turnstile.Once

open Run
open Store (Answer Call Token)

/-! ## Stages of custody -/

/-- How a caller stands to the lock that it may take; `release` is the call that
frees it. -/
inductive Custody where
  /-- It was not told a token. -/
  | none
  /-- It was told the token just now. -/
  | given (release : Call)
  /-- It owes the release if it breaks off. -/
  | guarded (release : Call)
  /-- It is about to begin the release itself. -/
  | due (release : Call)
  /-- The release was begun, or was left behind. -/
  | letGo (release : Call)

namespace Custody

/-- How a note changes it. -/
def after : Custody → Note → Custody
  | .none, .told (.acquireLock lock _) (.ok (.token (some token))) => .given (.releaseLock lock token)
  | .given release, .held _ => .guarded release
  | .guarded release, .unheld => .due release
  | .guarded release, .quit _ => .letGo release
  | .due release, .sent _ => .letGo release
  | custody, _ => custody

/-- What the caller owes to the store. -/
def owed : Custody → Option Call
  | .guarded release => some release
  | _ => Option.none

/-- The release of the lock whose token the caller was told. -/
def release? : Custody → Option Call
  | .none => Option.none
  | .given release => some release
  | .guarded release => some release
  | .due release => some release
  | .letGo release => some release

/-- The caller was told no token, or has let go of the lock. -/
def IsClosed (c : Custody) : Prop :=
  c = .none ∨ ∃ release, c = .letGo release

/-- The caller was told no token, or owes the release. -/
def IsOpen (c : Custody) : Prop :=
  c = .none ∨ ∃ release, c = .guarded release

end Custody

/-- How the caller with these notes stands to its lock. -/
def custody : List Note → Custody
  | [] => .none
  | n :: past => (custody past).after n

/-- A call that frees a lock. -/
def IsRelease : Call → Prop
  | .releaseLock .. => True
  | _ => False

/-- A call that takes or frees a lock. -/
def IsOfLock : Call → Prop
  | .acquireLock .. => True
  | .releaseLock .. => True
  | _ => False

/-- A release is a call about a lock. -/
theorem IsRelease.isOfLock {call : Call} (h : IsRelease call) : IsOfLock call := by
  cases call <;> trivial

/-- What a caller may do, by how it stands to its lock: once it is told the token it
owes the release, and once it owes nothing it begins the release, and no call
after that. -/
def Custody.allows : Custody → Note → Prop
  | .none, .sent call => ¬ IsRelease call
  | .none, .held _ => False
  | .none, .unheld => False
  | .none, .quit owed => owed = Option.none
  | .given release, n => n = .held release
  | .guarded _, .sent call => ¬ IsOfLock call
  | .guarded _, .held _ => False
  | .guarded release, .quit owed => owed = some release
  | .due release, n => n = .sent release
  | .letGo _, .sent _ => False
  | .letGo _, .held _ => False
  | .letGo _, .unheld => False
  | .letGo _, .quit owed => owed = Option.none
  | _, _ => True

/-- To keep custody of a lock, and not to end before it is let go of. -/
def keepingCustody {α : Type} : Pact α where
  may past n := (custody past).allows n
  ends past _ := (custody past).IsClosed

/-! ## Steps that leave the custody as it is -/

/-- The caller stands so to its lock, and owes accordingly. -/
structure Stands (past : List Note) (c : Custody) : Prop where
  custody : Once.custody past = c
  owed : owedBy past = c.owed

/-- A note of what is no call, and changes nothing in what is owed. -/
def IsAside : Note → Prop
  | .resumed => True
  | .read _ => True
  | .emitted _ => True
  | .drew _ => True
  | .paused _ => True
  | .began _ => True
  | .finished _ => True
  | _ => False

section

variable {past : List Note} {c : Custody} {call release : Call} {n : Note}

/-- At the start nothing is in custody. -/
theorem Stands.start : Stands [.resumed] .none :=
  ⟨rfl, rfl⟩

/-- Custody changes with every note. -/
@[simp]
theorem custody_cons (n : Note) (past : List Note) : custody (n :: past) = (custody past).after n :=
  rfl

/-- What a caller does aside changes nothing of the custody. -/
theorem Custody.after_aside (c : Custody) (hn : IsAside n) : c.after n = c := by
  cases n <;> first | exact hn.elim | (cases c <;> rfl)

/-- What becomes of a call changes nothing until its caller is told. -/
theorem Custody.after_outcome (c : Custody) (call : Call) (answer : Option Answer) :
    c.after (outcome call answer) = c := by
  cases answer <;> cases c <;> rfl

/-- Only a token changes how a caller stands that is told something. -/
theorem Custody.after_told {result : Except Store.Error Answer}
    (hc : c = .none → ∀ lock ttl token, call = .acquireLock lock ttl →
      result ≠ .ok (.token (some token))) : c.after (.told call result) = c := by
  cases c with
  | none =>
      cases call with
      | acquireLock lock ttl =>
          cases result with
          | error error => rfl
          | ok a =>
              cases a with
              | token given =>
                  cases given with
                  | none => rfl
                  | some token => exact absurd rfl (hc rfl lock ttl token rfl)
              | _ => rfl
      | _ => rfl
  | _ => rfl

/-- Custody stands while a caller does something aside. -/
theorem Stands.aside (h : Stands past c) (hn : IsAside n) : Stands (n :: past) c := by
  rcases h with ⟨rfl, howed⟩
  refine ⟨Custody.after_aside _ hn, ?_⟩
  cases n <;> first | exact hn.elim | exact howed

/-- Custody stands while a call takes effect or is lost. -/
theorem Stands.outcome (h : Stands past c) (call : Call) (answer : Option Answer) :
    Stands (outcome call answer :: past) c := by
  rcases h with ⟨rfl, howed⟩
  refine ⟨Custody.after_outcome _ call answer, ?_⟩
  cases answer <;> exact howed

/-- Custody stands while another call is begun, unless a release is due. -/
theorem Stands.sent (h : Stands past c) (hc : ∀ release, c ≠ .due release) (call : Call) :
    Stands (.sent call :: past) c := by
  rcases h with ⟨rfl, howed⟩
  refine ⟨?_, howed⟩
  show (Once.custody past).after (.sent call) = Once.custody past
  cases hpast : Once.custody past with
  | due release => exact absurd hpast (hc release)
  | _ => rfl

/-- Who is told something other than a token while it has none stands as before. -/
theorem Stands.told (h : Stands past c) {result : Except Store.Error Answer}
    (hc : c = .none → ∀ lock ttl token, call = .acquireLock lock ttl →
      result ≠ .ok (.token (some token))) : Stands (.told call result :: past) c := by
  rcases h with ⟨rfl, howed⟩
  exact ⟨Custody.after_told hc, howed⟩

/-- The notes of a call that takes and frees no lock. -/
theorem Stands.called (h : Stands past c) (hopen : c.IsOpen) (hcall : ¬ IsOfLock call)
    (answer : Option Answer) (result : Except Store.Error Answer) :
    Stands (.told call result :: Run.outcome call answer :: .sent call :: past) c := by
  have hdue : ∀ release, c ≠ .due release := by
    rcases hopen with rfl | ⟨release, rfl⟩ <;> exact nofun
  refine ((h.sent hdue call).outcome call answer).told ?_
  rintro _ lock ttl token rfl
  exact absurd trivial hcall

/-! ## Steps that change it -/

/-- Who is told of a token has to keep it. -/
theorem Stands.given (h : Stands past .none) (lock : String) (ttl : Span) (token : Token) :
    Stands (.told (.acquireLock lock ttl) (.ok (.token (some token))) :: past)
      (.given (.releaseLock lock token)) := by
  refine ⟨?_, h.owed⟩
  simp only [Once.custody, h.custody]
  rfl

/-- A token that was given is guarded from then on. -/
theorem Stands.held (h : Stands past (.given release)) :
    Stands (.held release :: past) (.guarded release) := by
  refine ⟨?_, rfl⟩
  simp only [Once.custody, h.custody]
  rfl

/-- Where the guard is taken off, the release is due. -/
theorem Stands.unheld (h : Stands past (.guarded release)) :
    Stands (.unheld :: past) (.due release) := by
  refine ⟨?_, rfl⟩
  simp only [Once.custody, h.custody]
  rfl

/-- A release that is due is begun. -/
theorem Stands.let_go (h : Stands past (.due release)) :
    Stands (.sent release :: past) (.letGo release) := by
  refine ⟨?_, h.owed⟩
  simp only [Once.custody, h.custody]
  rfl

/-- Whoever owes what is at stake may break off. -/
theorem Stands.mayQuit {α : Type} (h : Stands past c) (hc : c.IsOpen ∨ c.IsClosed) :
    (keepingCustody : Pact α).mayQuit past := by
  show (Once.custody past).allows (.quit (owedBy past))
  rw [h.custody, h.owed]
  rcases hc with (rfl | ⟨release, rfl⟩) | (rfl | ⟨release, rfl⟩) <;> rfl

/-- What the custody allows, the pact allows. -/
theorem Stands.may {α : Type} (h : Stands past c) (hn : c.allows n) :
    (keepingCustody : Pact α).may past n := by
  show (Once.custody past).allows n
  rw [h.custody]
  exact hn

/-- Whoever has closed its custody may end. -/
theorem Stands.ends {α : Type} (h : Stands past c) (hc : c.IsClosed) (a : α) :
    (keepingCustody : Pact α).ends past a := by
  show (Once.custody past).IsClosed
  rw [h.custody]
  exact hc

end

/-! ## The steps of a caller -/

section

variable {cfg : Config} {key : OperationKey} {handler : Handler} {past : List Note} {c : Custody}
  {token : Token}

/-- Whoever reports an event goes on as it stands. -/
theorem custody_emit {event : Event} {next : Program Result} (h : Stands past c)
    (hc : c.IsOpen ∨ c.IsClosed)
    (hnext : Stands (.emitted event :: past) c →
      Keeps handler keepingCustody (.emitted event :: past) next) :
    Keeps handler keepingCustody past (.emit event next) := by
  refine ⟨h.may ?_, hnext (h.aside trivial)⟩
  rcases hc with (rfl | ⟨release, rfl⟩) | (rfl | ⟨release, rfl⟩) <;> trivial

/-- Whoever calls the store, but for its lock, goes on as it stands. -/
theorem custody_call {call : Call} {deadline : Span}
    {next : Except Store.Error Answer → Program Result} (h : Stands past c) (hopen : c.IsOpen)
    (hcall : ¬ IsOfLock call)
    (hnext : ∀ answer result, Stands
        (.told call result :: outcome call answer :: .sent call :: past) c →
      Keeps handler keepingCustody (.told call result :: outcome call answer :: .sent call :: past)
        (next result)) :
    Keeps handler keepingCustody past (.call call deadline next) := by
  have hdue : ∀ release, c ≠ .due release := by
    rcases hopen with rfl | ⟨release, rfl⟩ <;> exact nofun
  refine ⟨h.may ?_, fun answer => ⟨?_, fun result _ => ?_⟩⟩
  · rcases hopen with rfl | ⟨release, rfl⟩
    · cases call <;> first | exact id | exact absurd trivial hcall
    · exact hcall
  · exact ((h.sent hdue call).outcome call answer).mayQuit (Or.inl hopen)
  · exact hnext answer result (h.called hopen hcall answer result)

/-- A look-up leaves the custody as it is. -/
theorem custody_lookup {f : Except Store.Error (Option Record) → Program Result} (h : Stands past c)
    (hopen : c.IsOpen)
    (hnext : ∀ past' found, Stands past' c → Keeps handler keepingCustody past' (f found)) :
    Keeps handler keepingCustody past (lookup cfg key >>= f) := by
  rw [lookup_bind]
  intro now
  have hread : Stands (.read now :: past) c := h.aside trivial
  exact custody_call hread hopen id fun _ _ hafter => hnext _ _ hafter

/-- Whoever runs the handler goes on as it stands. -/
theorem custody_serve {request : Http.Request} {next : Http.Response → Program Result}
    (h : Stands past c) (hc : c.IsOpen ∨ c.IsClosed)
    (hnext : ∀ response past', Stands past' c → Keeps handler keepingCustody past' (next response)) :
    Keeps handler keepingCustody past (.serve request next) := by
  have hbegan : Stands (.began request :: past) c := h.aside trivial
  have hfinished : ∀ response, Stands (.finished response :: .began request :: past) c :=
    fun _ => hbegan.aside trivial
  refine ⟨h.may ?_, (hfinished none).mayQuit hc, fun response _ => hnext response _ (hfinished _)⟩
  rcases hc with (rfl | ⟨release, rfl⟩) | (rfl | ⟨release, rfl⟩) <;> trivial

/-- So does a replay, which ends. -/
theorem custody_replay {record : Record} (h : Stands past c) (hc : c.IsClosed) :
    Keeps handler keepingCustody past (replay key record) :=
  custody_emit h (Or.inr hc) fun hreported => hreported.ends hc _

/-- So does a run without a guard, which ends. -/
theorem custody_bypass {request : Http.Request} (h : Stands past c) (hc : c.IsClosed) :
    Keeps handler keepingCustody past (bypass (served request)) :=
  custody_serve h (Or.inr hc) fun _ _ hafter => hafter.ends hc _

/-- So does a failure of the store, whatever the policy makes of it. -/
theorem custody_onStoreFailure {error : Store.Error} {request : Http.Request} (h : Stands past c)
    (hc : c.IsClosed) :
    Keeps handler keepingCustody past (onStoreFailure cfg error (served request)) := by
  rw [onStoreFailure_eq]
  refine custody_emit h (Or.inr hc) fun hreported => ?_
  by_cases hfailOpen : cfg.failurePolicy = .failOpen
  · rw [if_pos hfailOpen]
    exact custody_bypass hreported hc
  · rw [if_neg hfailOpen]
    exact hreported.ends hc _

/-- Whoever releases its lock has let go of it. -/
theorem custody_release {f : Unit → Program Result}
    (h : Stands past (.guarded (.releaseLock key.lock token)))
    (hnext : ∀ past', Stands past' (.letGo (.releaseLock key.lock token)) →
      Keeps handler keepingCustody past' (f ())) :
    Keeps handler keepingCustody past (release cfg key token >>= f) := by
  rw [release_bind]
  have hsent := h.unheld.let_go
  refine ⟨h.may trivial, h.unheld.may rfl, fun answer => ⟨?_, fun result _ => ?_⟩⟩
  · exact (hsent.outcome _ answer).mayQuit (Or.inr (Or.inr ⟨_, rfl⟩))
  · exact hnext _ ((hsent.outcome _ answer).told nofun)

/-- Recording a response leaves the custody as it is. -/
theorem custody_capture {response : Http.Response} {f : Http.Response → Program Result}
    (h : Stands past c) (hopen : c.IsOpen)
    (hnext : ∀ given past', Stands past' c → Keeps handler keepingCustody past' (f given)) :
    Keeps handler keepingCustody past (capture cfg key response >>= f) := by
  rcases capture_eq cfg key response with ⟨_, body, _, hcapture⟩ | ⟨bytes, _, hcapture⟩
  · rw [hcapture]
    exact custody_emit h (Or.inl hopen) (hnext _ _)
  · rw [hcapture]
    intro now
    have hread : Stands (.read now :: past) c := h.aside trivial
    refine custody_call hread hopen id fun answer result hafter => ?_
    exact custody_emit hafter (Or.inl hopen) (hnext _ _)

/-- Whoever looks again under the lock releases it on every path. -/
theorem custody_afterRecheck {request : Http.Request}
    (h : Stands past (.guarded (.releaseLock key.lock token)))
    (found : Except Store.Error (Option Record)) :
    Keeps handler keepingCustody past (afterRecheck cfg key (served request) token found) := by
  have hclosed : (Custody.letGo (.releaseLock key.lock token)).IsClosed := Or.inr ⟨_, rfl⟩
  have hopen : (Custody.guarded (.releaseLock key.lock token)).IsOpen := Or.inr ⟨_, rfl⟩
  cases found with
  | error error => exact custody_release h fun _ hafter => custody_onStoreFailure hafter hclosed
  | ok found =>
      cases found with
      | some record => exact custody_release h fun _ hafter => custody_replay hafter hclosed
      | none =>
          refine custody_serve h (Or.inl hopen) fun response _ hserved => ?_
          refine custody_capture hserved hopen fun given _ hcaptured => ?_
          exact custody_release hcaptured fun _ hafter => hafter.ends hclosed _

/-- Whoever waits for the holder has nothing to release. -/
theorem custody_awaitHolder (h : Stands past .none) :
    Keeps handler keepingCustody past (awaitHolder cfg key) := by
  have hopen : Custody.none.IsOpen := Or.inl rfl
  have hclosed : Custody.none.IsClosed := Or.inl rfl
  refine custody_emit h (Or.inl hopen) fun hreported => ?_
  have hpaused : Stands (.paused cfg.contentionWait :: .emitted (.lockContention key.text) :: past)
      .none := hreported.aside trivial
  refine ⟨hreported.may trivial, hpaused.mayQuit (Or.inl hopen), ?_⟩
  refine custody_lookup (hpaused.aside trivial) hopen fun past' found hafter => ?_
  cases found with
  | error error => exact custody_emit hafter (Or.inl hopen) fun hfailed => hfailed.ends hclosed _
  | ok found =>
      cases found with
      | some record => exact custody_replay hafter hclosed
      | none => exact custody_emit hafter (Or.inl hopen) fun hconflict => hconflict.ends hclosed _

/-- A caller that is told a token owes the release from then on. -/
theorem custody_acquire {request : Http.Request} (h : Stands past .none) :
    Keeps handler keepingCustody past (acquire cfg key >>= afterAcquire cfg key (served request)) := by
  have hopen : Custody.none.IsOpen := Or.inl rfl
  rw [acquire_bind]
  have hsent : ∀ answer, Stands (outcome (.acquireLock key.lock cfg.lockTtl) answer ::
      .sent (.acquireLock key.lock cfg.lockTtl) :: past) .none :=
    fun answer => (h.sent nofun _).outcome _ answer
  refine ⟨h.may id, fun answer => ⟨(hsent answer).mayQuit (Or.inl hopen), fun result _ => ?_⟩⟩
  cases result with
  | error error =>
      exact custody_onStoreFailure ((hsent answer).told (fun _ _ _ _ _ => nofun)) (Or.inl rfl)
  | ok a =>
      simp only [Except.map]
      cases htoken : tokenOf a with
      | none =>
          refine custody_awaitHolder ((hsent answer).told ?_)
          intro _ _ _ token _ heq
          rw [Except.ok.inj heq] at htoken
          exact nomatch htoken
      | some token =>
          have ha : a = .token (some token) := eq_token_of_tokenOf htoken
          subst ha
          have hgiven := (hsent answer).given key.lock cfg.lockTtl token
          refine ⟨hgiven.may rfl, custody_lookup hgiven.held (Or.inr ⟨_, rfl⟩) fun _ found hafter => ?_⟩
          exact custody_afterRecheck hafter found

end

/-- Every caller keeps custody of its lock. -/
theorem Caller.keeps_custody (c : Caller) : KeepsFromStart c.handler keepingCustody c.program := by
  have hopen : Custody.none.IsOpen := Or.inl rfl
  have hclosed : Custody.none.IsClosed := Or.inl rfl
  refine ⟨rfl, ?_⟩
  have hguarded : ∀ key, Keeps c.handler keepingCustody [.resumed]
      (guarded c.config key (served c.http)) := by
    intro key
    refine custody_lookup Stands.start hopen fun past found hafter => ?_
    cases found with
    | error error => exact custody_onStoreFailure hafter hclosed
    | ok found =>
        cases found with
        | some record => exact custody_replay hafter hclosed
        | none => exact custody_acquire hafter
  unfold Caller.program execute
  cases c.request.token with
  | none => exact custody_bypass Stands.start hclosed
  | some token =>
      dsimp only
      split
      · cases validateToken token with
        | none => exact hguarded _
        | some fault =>
            exact custody_emit Stands.start (Or.inl hopen) fun hreported => hreported.ends hclosed _
      · exact custody_bypass Stands.start hclosed

/-! ## Custody along the notes -/

/-- The note that a caller is told a token. -/
def toldToken (lock : String) (ttl : Span) (token : Token) : Note :=
  .told (.acquireLock lock ttl) (.ok (.token (some token)))

/-- What the notes of a caller that keeps custody say of its tokens and of its
releases. -/
structure InCustody (notes : List Note) : Prop where
  told : ∀ lock ttl token, toldToken lock ttl token ∈ notes →
    (custody notes).release? = some (.releaseLock lock token)
  given : ∀ release, (custody notes).release? = some release →
    ∃ lock ttl token, release = .releaseLock lock token ∧ toldToken lock ttl token ∈ notes
  letGo : ∀ release, custody notes = .letGo release →
    ∃ earlier, callsOf notes = release :: earlier ∧ ∀ call ∈ earlier, ¬ IsRelease call
  kept : (∀ release, custody notes ≠ .letGo release) → ∀ call ∈ callsOf notes, ¬ IsRelease call

section

variable {handler : Handler} {past notes : List Note} {n : Note} {c c' : Custody}
  {call release : Call}

/-- Before anything is noted no token is out of custody. -/
theorem InCustody.start : InCustody [] :=
  ⟨nofun, nofun, nofun, nofun⟩

/-- A note that tells no token leaves the release that is at stake. -/
theorem InCustody.grow (h : InCustody past)
    (hsame : (custody (n :: past)).release? = (custody past).release?)
    (htold : ∀ lock ttl token, n ≠ toldToken lock ttl token)
    (hletGo : ∀ release, custody (n :: past) = .letGo release →
      ∃ earlier, callsOf (n :: past) = release :: earlier ∧ ∀ call ∈ earlier, ¬ IsRelease call)
    (hkept : (∀ release, custody (n :: past) ≠ .letGo release) →
      ∀ call ∈ callsOf (n :: past), ¬ IsRelease call) : InCustody (n :: past) where
  told lock ttl token hmem := by
    rw [hsame]
    rcases List.mem_cons.1 hmem with heq | hmem
    · exact absurd heq.symm (htold lock ttl token)
    · exact h.told lock ttl token hmem
  given release hrelease := by
    rw [hsame] at hrelease
    rcases h.given release hrelease with ⟨lock, ttl, token, heq, hmem⟩
    exact ⟨lock, ttl, token, heq, List.mem_cons_of_mem _ hmem⟩
  letGo := hletGo
  kept := hkept

/-- A note that begins no call and changes nothing. -/
theorem InCustody.keep (h : InCustody past) (hc : custody past = c) (hsame : c.after n = c)
    (hcall : n.call? = none) (htold : ∀ lock ttl token, n ≠ toldToken lock ttl token) :
    InCustody (n :: past) := by
  subst hc
  have hcustody : custody (n :: past) = custody past := hsame
  have hcalls : callsOf (n :: past) = callsOf past := by simp [hcall]
  refine h.grow (congrArg _ hcustody) htold ?_ ?_
  · rw [hcustody, hcalls]
    exact h.letGo
  · rw [hcustody, hcalls]
    exact h.kept

/-- A call of a caller that has not let go of its lock, other than a release. -/
theorem InCustody.begin_call (h : InCustody past) (hc : custody past = c)
    (hsame : c.after (.sent call) = c) (hkept : ∀ release, c ≠ .letGo release)
    (hcall : ¬ IsRelease call) : InCustody (.sent call :: past) := by
  subst hc
  have hcustody : custody (.sent call :: past) = custody past := hsame
  refine h.grow (congrArg _ hcustody) nofun ?_ ?_
  · intro release hrelease
    rw [hcustody] at hrelease
    exact absurd hrelease (hkept release)
  · intro _ call' hmem
    rcases List.mem_cons.1 hmem with rfl | hmem
    · exact hcall
    · exact h.kept hkept call' hmem

/-- A note by which the release of the same lock is at stake, as before. -/
theorem InCustody.advance (h : InCustody past) (hc : custody past = c) (hc' : c.after n = c')
    (hbefore : c.release? = some release) (hafter : c'.release? = some release)
    (hkept : ∀ release, c ≠ .letGo release)
    (hcall : (n.call? = none ∧ ∀ release, c' ≠ .letGo release) ∨
      n.call? = some release ∧ c' = .letGo release)
    (htold : ∀ lock ttl token, n ≠ toldToken lock ttl token) : InCustody (n :: past) := by
  subst hc hc'
  have hcustody : custody (n :: past) = (custody past).after n := rfl
  refine h.grow (hafter.trans hbefore.symm) htold ?_ ?_
  · intro release' hrelease
    rw [hcustody] at hrelease
    rcases hcall with ⟨_, hnot⟩ | ⟨hcall, hletGo⟩
    · exact absurd hrelease (hnot release')
    · rw [hletGo, Custody.letGo.injEq] at hrelease
      subst hrelease
      exact ⟨callsOf past, by simp [hcall], h.kept hkept⟩
  · intro hnot
    rcases hcall with ⟨hcall, _⟩ | ⟨_, hletGo⟩
    · simpa [hcall] using h.kept hkept
    · exact absurd hletGo (hnot release)

/-- Who asks for a lock was told no token before. -/
theorem none_of_asked {past older : List Note} {lock : String} {ttl : Span} {answer : Option Answer}
    (hlawful : Lawful handler (keepingCustody : Pact Result) past)
    (hcustody : ∀ older, older <:+ past → InCustody older)
    (hpast : past = outcome (.acquireLock lock ttl) answer :: .sent (.acquireLock lock ttl) :: older) :
    custody past = .none := by
  subst hpast
  have hallows := (hlawful _ older (List.suffix_cons _ _)).2 trivial
  have hinside := hcustody older ((List.suffix_cons _ _).trans (List.suffix_cons _ _))
  have holder : (custody older).allows (.sent (.acquireLock lock ttl)) := hallows
  simp only [custody_cons, Custody.after_outcome]
  cases hc : custody older with
  | none => rfl
  | given release => rw [hc] at holder; exact nomatch holder
  | guarded release => rw [hc] at holder; exact absurd trivial holder
  | due release =>
      rw [hc] at holder
      rcases hinside.given release (by rw [hc]; rfl) with ⟨_, _, _, rfl, _⟩
      exact nomatch holder
  | letGo release => rw [hc] at holder; exact holder.elim

/-- Who is told the token of a lock has one from then on. -/
theorem InCustody.give (h : InCustody past) (hnone : custody past = .none) (lock : String) (ttl : Span)
    (token : Token) : InCustody (toldToken lock ttl token :: past) := by
  have hcustody : custody (toldToken lock ttl token :: past) = .given (.releaseLock lock token) := by
    rw [custody_cons, hnone]
    rfl
  have hcalls : callsOf (toldToken lock ttl token :: past) = callsOf past := rfl
  refine ⟨?_, ?_, ?_, ?_⟩
  · intro lock' ttl' token' hmem
    rw [hcustody]
    rcases List.mem_cons.1 hmem with heq | hmem
    · cases heq
      rfl
    · have hearlier := h.told lock' ttl' token' hmem
      rw [hnone] at hearlier
      exact nomatch hearlier
  · intro release hrelease
    rw [hcustody] at hrelease
    exact ⟨lock, ttl, token, (Option.some.inj hrelease).symm, List.mem_cons_self⟩
  · intro release hrelease
    rw [hcustody] at hrelease
    exact nomatch hrelease
  · intro _
    rw [hcalls]
    exact h.kept fun release hletGo => nomatch hnone.symm.trans hletGo

/-- Whatever a caller does that keeps custody, its notes say so. -/
theorem InCustody.step (hlawful : Lawful handler (keepingCustody : Pact Result) (n :: past))
    (hpast : ∀ older, older <:+ past → InCustody older) : InCustody (n :: past) := by
  have h : InCustody past := hpast past List.suffix_rfl
  rcases hlawful n past List.suffix_rfl with ⟨hanswers, hallowed⟩
  cases n with
  | told call result =>
      by_cases htoken : ∃ lock ttl token, (.told call result : Note) = toldToken lock ttl token
      · rcases htoken with ⟨lock, ttl, token, heq⟩
        cases heq
        rcases hanswers with ⟨answer, older, holder, _⟩
        have hbefore := hlawful.of_suffix (List.suffix_cons _ past)
        exact h.give (none_of_asked hbefore hpast holder) lock ttl token
      · have hother : ∀ lock ttl token, (.told call result : Note) ≠ toldToken lock ttl token :=
          fun lock ttl token heq => htoken ⟨lock, ttl, token, heq⟩
        refine h.keep rfl (Custody.after_told ?_) rfl hother
        rintro _ lock ttl token rfl rfl
        exact hother lock ttl token rfl
  | held call =>
      have hallows : (custody past).allows (.held call) := hallowed trivial
      cases hc : custody past with
      | given release =>
          rw [hc] at hallows
          cases hallows
          exact h.advance hc rfl rfl rfl nofun (Or.inl ⟨rfl, nofun⟩) nofun
      | _ => rw [hc] at hallows; exact nomatch hallows
  | unheld =>
      have hallows : (custody past).allows .unheld := hallowed trivial
      cases hc : custody past with
      | guarded release =>
          exact h.advance hc rfl rfl rfl nofun (Or.inl ⟨rfl, nofun⟩) nofun
      | _ => rw [hc] at hallows; exact nomatch hallows
  | sent call =>
      have hallows : (custody past).allows (.sent call) := hallowed trivial
      cases hc : custody past with
      | none =>
          rw [hc] at hallows
          exact h.begin_call hc rfl nofun hallows
      | guarded release =>
          rw [hc] at hallows
          exact h.begin_call hc rfl nofun fun hrelease => hallows hrelease.isOfLock
      | due release =>
          rw [hc] at hallows
          cases hallows
          exact h.advance hc rfl rfl rfl nofun (Or.inr ⟨rfl, rfl⟩) nofun
      | _ => rw [hc] at hallows; exact nomatch hallows
  | quit owed =>
      have hallows : (custody past).allows (.quit owed) := hallowed trivial
      cases hc : custody past with
      | none =>
          rw [hc] at hallows
          cases hallows
          exact h.keep hc rfl rfl nofun
      | guarded release =>
          rw [hc] at hallows
          cases hallows
          exact h.advance hc rfl rfl rfl nofun (Or.inr ⟨rfl, rfl⟩) nofun
      | letGo release =>
          rw [hc] at hallows
          cases hallows
          exact h.keep hc rfl rfl nofun
      | _ => rw [hc] at hallows; exact nomatch hallows
  | done call answer => exact h.keep rfl (Custody.after_outcome _ call (some answer)) rfl nofun
  | lost call => exact h.keep rfl (Custody.after_outcome _ call none) rfl nofun
  | ended => exact h.keep rfl (by cases custody past <;> rfl) rfl nofun
  | _ => exact h.keep rfl (Custody.after_aside _ trivial) rfl nofun

/-- Notes that keep the pact are in custody. -/
theorem inCustody_of_lawful (hlawful : Lawful handler (keepingCustody : Pact Result) notes) :
    InCustody notes := by
  suffices hall : ∀ older, older <:+ notes → InCustody older from hall notes List.suffix_rfl
  induction notes with
  | nil =>
      intro older holder
      rw [List.suffix_nil.1 holder]
      exact .start
  | cons n past ih =>
      have hbefore := ih (hlawful.of_suffix (List.suffix_cons n past))
      intro older holder
      rcases List.suffix_cons_iff.1 holder with rfl | holder
      · exact .step hlawful hbefore
      · exact hbefore older holder

/-- Whoever keeps custody breaks off only with the lock let go of. -/
theorem Custody.closed_after_quit {owed : Option Call} (h : c.allows (.quit owed)) :
    (c.after (.quit owed)).IsClosed := by
  cases c with
  | none => exact Or.inl rfl
  | given release => exact nomatch h
  | guarded release => exact Or.inr ⟨release, rfl⟩
  | due release => exact nomatch h
  | letGo release => exact Or.inr ⟨release, rfl⟩

/-- Whoever begins a release was about to do so. -/
theorem due_of_sent (hlawful : Lawful handler (keepingCustody : Pact Result) notes)
    (hn : .sent call :: past <:+ notes) (hrelease : IsRelease call) : custody past = .due call := by
  have hallows : (custody past).allows (.sent call) := (hlawful _ past hn).2 trivial
  cases hc : custody past with
  | none => rw [hc] at hallows; exact absurd hrelease hallows
  | guarded release => rw [hc] at hallows; exact absurd hrelease.isOfLock hallows
  | due release => rw [hc] at hallows; rw [Note.sent.inj hallows]
  | _ => rw [hc] at hallows; exact nomatch hallows

/-- Whoever leaves a call behind owed it. -/
theorem guarded_of_quit (hlawful : Lawful handler (keepingCustody : Pact Result) notes)
    (hn : .quit (some call) :: past <:+ notes) : custody past = .guarded call := by
  have hallows : (custody past).allows (.quit (some call)) := (hlawful _ past hn).2 trivial
  cases hc : custody past with
  | guarded release => rw [hc] at hallows; rw [Option.some.inj hallows]
  | _ => rw [hc] at hallows; exact nomatch hallows

/-- Whoever begins a release or leaves it behind was told the token before. -/
theorem told_before_release (hlawful : Lawful handler (keepingCustody : Pact Result) notes)
    (hn : n :: past <:+ notes) {lock : String} {token : Token}
    (hcall : n.call? = some (.releaseLock lock token)) :
    ∃ ttl, toldToken lock ttl token ∈ past := by
  have hinside := inCustody_of_lawful (hlawful.of_suffix ((List.suffix_cons n past).trans hn))
  have hrelease : (custody past).release? = some (.releaseLock lock token) := by
    cases n with
    | sent call =>
        cases hcall
        rw [due_of_sent hlawful hn trivial]
        rfl
    | quit owed =>
        have howed : owed = some (.releaseLock lock token) := hcall
        subst howed
        rw [guarded_of_quit hlawful hn]
        rfl
    | _ => exact nomatch hcall
  rcases hinside.given _ hrelease with ⟨lock', ttl, token', heq, hmem⟩
  cases heq
  exact ⟨ttl, hmem⟩

/-- Whoever was told a token was answered so by the store. -/
theorem done_of_told (hlawful : Lawful handler (keepingCustody : Pact Result) notes) {lock : String}
    {ttl : Span} {token : Token} (htold : toldToken lock ttl token ∈ notes) :
    .done (.acquireLock lock ttl) (.token (some token)) ∈ notes := by
  rcases List.append_of_mem htold with ⟨newer, older, rfl⟩
  rcases (hlawful _ older (List.suffix_append _ _)).1 with ⟨answer, before, rfl, hreports⟩
  have hanswer : answer = some (.token (some token)) := hreports
  subst hanswer
  exact List.mem_append_right _ (List.mem_cons_of_mem _ List.mem_cons_self)

/-- No caller makes a release and then another call. -/
theorem InCustody.no_release_before (h : InCustody notes) {earlier : List Call}
    (hcalls : callsOf notes = call :: earlier) : ∀ call' ∈ earlier, ¬ IsRelease call' := by
  by_cases hletGo : ∃ release, custody notes = .letGo release
  · rcases hletGo with ⟨release, hletGo⟩
    rcases h.letGo release hletGo with ⟨earlier', hsame, hnone⟩
    rw [hcalls] at hsame
    rw [(List.cons.inj hsame).2]
    exact hnone
  · intro call' hmem
    refine h.kept (not_exists.1 hletGo) call' ?_
    rw [hcalls]
    exact List.mem_cons_of_mem _ hmem

/-- The calls of a caller that was told a token and has come to an end are some that
are no releases, and then one release. -/
theorem InCustody.releases (h : InCustody notes) (hclosed : (custody notes).IsClosed) {lock : String}
    {ttl : Span} {token : Token} (htold : toldToken lock ttl token ∈ notes) :
    ∃ earlier, callsOf notes = .releaseLock lock token :: earlier ∧
      ∀ call ∈ earlier, ¬ IsRelease call := by
  have hrelease := h.told lock ttl token htold
  rcases hclosed with hnone | ⟨release, hletGo⟩
  · rw [hnone] at hrelease
    exact nomatch hrelease
  · rw [hletGo] at hrelease
    rw [← Option.some.inj hrelease]
    exact h.letGo release hletGo

end

end Turnstile.Once
