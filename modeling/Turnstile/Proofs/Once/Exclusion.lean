import Turnstile.Proofs.Once.Callers
import Turnstile.Proofs.Once.Calm

/-!
# Mutual exclusion

No two runs of handlers under one key overlap, as long as every run under a lock
ends before the lock expires.  Everything else may go wrong: callers may be
cancelled, handlers may break off, calls of the store may fail, wait, be given
up or take effect after they were given up, and releases may come late.

Main results:

- Theorem `not_let_go_of_serving`: whoever runs the handler has not let go of its
  lock.
- Theorem `runs_never_overlap`: no two runs under one key overlap.
-/

namespace Turnstile.Once

open Run
open Store (Answer Call Token)

/-- At the end of the log the task is in a run of its handler. -/
def IsServing (log : Log) (i : Nat) : Prop :=
  ∃ request older, own i log = .began request :: older

/-- At the end of the log the task holds a lock, which it took at a time for a
span. -/
def Holds (log : Log) (i : Nat) (lock : String) (token : Token) (time : Nat) (ttl : Span) : Prop :=
  owedBy (own i log) = some (.releaseLock lock token) ∧
    ∃ past, Tells log ⟨time, some i, .done (.acquireLock lock ttl) (.token (some token))⟩ past

/-- Whatever is noted while a task runs its handler under a lock is noted before
that lock expires. -/
def RunsAreShort (log : Log) : Prop :=
  ∀ e past, Tells log e past → ∀ i lock token time ttl, IsServing (e :: past) i →
    Holds (e :: past) i lock token time ttl → e.time < time + ttl.nanos

section

variable {callers : List Caller} {log : Log} {i : Nat} {key : OperationKey}

/-- A caller that runs its handler under a key was cleared to do so. -/
theorem cleared_of_serving (h : Account callers log) (hkey : keyOf callers i = some key)
    (hserving : IsServing log i) :
    ∃ c request token older, callers[i]? = some c ∧ c.key? = some key ∧
      own i log = .began request :: older ∧ Cleared c.config key token older := by
  rcases hserving with ⟨request, older, hown⟩
  unfold keyOf at hkey
  cases hc : callers[i]? with
  | none =>
      rw [hc] at hkey
      exact nomatch hkey
  | some c =>
      rw [hc] at hkey
      have hkey' : c.key? = some key := hkey
      have hlawful := h.lawful hc
      unfold Caller.rules at hlawful
      rw [hkey', hown] at hlawful
      rcases (hlawful _ older List.suffix_rfl).2 trivial with ⟨token, hcleared⟩
      exact ⟨c, request, token, older, rfl, hkey', hown, hcleared⟩

/-- Whoever was cleared to run its handler was given the lock and owes its
release. -/
theorem given_of_cleared {cfg : Config} {token : Token} {older : List Note}
    (h : Cleared cfg key token older) :
    WasGiven cfg key token older ∧ owedBy older = some (.releaseLock key.lock token) := by
  rcases h with ⟨now, answer, now', answer', _, _, rfl⟩
  exact ⟨by simp [WasGiven, lookedUp, tookLock], rfl⟩

/-- Whoever was cleared to run its handler has let go of nothing. -/
theorem not_letsGo_of_cleared {cfg : Config} {token token' : Token} {older : List Note}
    {lock : String} (h : Cleared cfg key token older) {n : Note} (hn : n ∈ older) :
    ¬ Account.LetsGo lock token' n := by
  rcases h with ⟨now, answer, now', answer', _, _, rfl⟩
  rintro (rfl | rfl)
  · simp [lookedUp, tookLock] at hn
  · simp [lookedUp, tookLock] at hn

/-- Whoever runs the handler has not let go of a lock. -/
theorem not_let_go_of_serving (h : Account callers log) (hkey : keyOf callers i = some key)
    (hserving : IsServing log i) {lock : String} {token : Token} {past : Log} (hs : past <:+ log) :
    ¬ Account.LetGo callers i lock token (own i past) := by
  rintro ⟨c, key', n, older, _, _, _, hn, hgo, _, _⟩
  rcases cleared_of_serving h hkey hserving with ⟨c', request, token', older', _, _, hown, hcleared⟩
  have hmem : n ∈ own i log := List.IsSuffix.mem List.mem_cons_self (hn.trans (own_suffix i hs))
  rw [hown] at hmem
  rcases List.mem_cons.1 hmem with rfl | hmem
  · rcases hgo with hgo | hgo
    · exact nomatch hgo
    · exact nomatch hgo
  · exact not_letsGo_of_cleared hcleared hmem hgo

/-- A caller that runs its handler holds the lock of its key. -/
theorem holds_of_serving (h : Account callers log) (hkey : keyOf callers i = some key)
    (hserving : IsServing log i) : ∃ token time ttl, Holds log i key.lock token time ttl := by
  rcases cleared_of_serving h hkey hserving with ⟨c, request, token, older, _, _, hown, hcleared⟩
  rcases given_of_cleared hcleared with ⟨hgiven, howed⟩
  have hgivenNow : WasGiven c.config key token (own i log) := by
    rw [hown]
    exact List.mem_cons_of_mem _ hgiven
  rcases Account.exists_given hgivenNow with ⟨time, past, htold⟩
  refine ⟨token, time, c.config.lockTtl, ?_, past, htold⟩
  rw [hown]
  exact howed

/-- Of two callers that run their handlers under one key, neither took the lock
after the other. -/
theorem not_taken_again (h : Account callers log) (hshort : RunsAreShort log)
    (hkey : keyOf callers i = some key) (hserving : IsServing log i) {j a a' : Nat}
    {ttl ttl' : Span} {token token' : Token} {past older : Log}
    (howed : owedBy (own i log) = some (.releaseLock key.lock token))
    (hagain : Tells log ⟨a', some j, .done (.acquireLock key.lock ttl') (.token (some token'))⟩
      past)
    (hfirst : Tells past ⟨a, some i, .done (.acquireLock key.lock ttl) (.token (some token))⟩
      older) : False := by
  rcases h.let_go_or_expired hagain hfirst with hgo | hexpired
  · exact not_let_go_of_serving h hkey hserving hagain.suffix hgo
  · cases log with
    | nil => exact absurd hagain.mem List.not_mem_nil
    | cons e rest =>
        have hlate := hshort e rest (Tells.last e rest) i _ token a ttl hserving
          ⟨howed, older, hagain.trans hfirst⟩
        have hbefore : a' ≤ e.time := Tells.time_le_last h.sorted hagain
        omega

end

/-- No two runs of handlers under one key overlap: at no moment of any run are
two callers of one key both in a run of their handlers, if every run under a
lock ends before the lock expires. -/
theorem runs_never_overlap {clocks : Clocks} {plan : Plan} {callers : List Caller}
    {happenings : List Happening}
    (hclosed : ∀ c ∈ callers, c.config.failurePolicy = .failClosed)
    (hshort : RunsAreShort (Chronicle.of (begin clocks plan callers) happenings).log)
    {past : Log} (hpast : past <:+ (Chronicle.of (begin clocks plan callers) happenings).log)
    {i j : Nat} {key : OperationKey} (hi : keyOf callers i = some key)
    (hj : keyOf callers j = some key) (hservingI : IsServing past i)
    (hservingJ : IsServing past j) : i = j := by
  have hacc : Account callers past := (account hclosed happenings).of_suffix hpast
  have hshortNow : RunsAreShort past := by
    intro e older htold
    exact hshort e older (htold.of_suffix hpast)
  rcases holds_of_serving hacc hi hservingI with ⟨token, a, ttl, howedI, olderI, htoldI⟩
  rcases holds_of_serving hacc hj hservingJ with ⟨token', a', ttl', howedJ, olderJ, htoldJ⟩
  -- The two took the same lock, one of them first.
  rcases htoldI.order htoldJ with ⟨heq, _⟩ | hbehind | hbehind
  · simp only [Entry.mk.injEq, Option.some.injEq] at heq
    exact heq.2.1
  · exact (not_taken_again hacc hshortNow hj hservingJ howedJ htoldI hbehind).elim
  · exact (not_taken_again hacc hshortNow hi hservingI howedI htoldJ hbehind).elim

/-! ## Two callers -/

/-- A request to pay. -/
def payment : Http.Request :=
  ⟨.post, "/payments", Http.Headers.empty, Http.Body.empty, none⟩

/-- A caller whose handler takes a microsecond to pay. -/
def payer : Caller where
  config := .standard
  request := ⟨some "order-1", .post, "/payments", none⟩
  http := payment
  handler := ⟨some 1000, fun _ _ => some (.ofStatus 201)⟩
  time := 0
  cancelAt := none

/-- The key of the order. -/
def orderKey : OperationKey :=
  KeyScheme.standard.key "order-1" .post "/payments" none

/-- Two callers pay for one order, and the first is paying when the second
comes. -/
def twoPayers : Chronicle Result :=
  .of (begin ⟨0, 0, none⟩ .faultless [payer, payer]) [.move (.resume 0), .move (.resume 1)]

theorem payer_key : payer.key? = some orderKey := by
  have hvalid : validateToken "order-1" = none := by decide
  have hguarded : payer.config.appliesTo payer.request.method ∧ validateToken "order-1" = none :=
    ⟨rfl, hvalid⟩
  unfold Caller.key?
  exact (if_pos hguarded : (if payer.config.appliesTo payer.request.method ∧
    validateToken "order-1" = none then some orderKey else none) = some orderKey)

/-- A payer that finds an empty store begins to pay. -/
theorem payer_notes (key : OperationKey) :
    settleNotes payer.handler (.start ⟨0, 0, none⟩ .faultless) none
        (guarded payer.config key (served payer.http)) =
      .began payer.http :: lookedUp key (.ofTotalNanos 0) (.value none)
        (tookLock .standard key (.issued 2) (lookedUp key (.ofTotalNanos 0) (.value none) [])) := by
  have hexpiry : Store.expiry 0 Config.standard.lockTtl =
      .ok (0 + Config.standard.lockTtl.nanos) := Store.expiry_ok (by decide)
  have hpays : Settles payer.handler (.start ⟨0, 0, none⟩ .faultless) none
      (guarded payer.config key (served payer.http) >>= Program.done) _ _ :=
    settles_cleared (fun _ => rfl) (fun _ => rfl) rfl rfl rfl hexpiry (Settles.serve_waits rfl)
  rw [← Program.bind_pure (guarded payer.config key (served payer.http))]
  exact hpays.notes

theorem twoPayers_serving : IsServing twoPayers.log 0 := by
  let first : State Result := begin ⟨0, 0, none⟩ .faultless [payer, payer]
  have htask : first.tasks[0]? = some payer.task := rfl
  have hlog : twoPayers.log =
      (first.apply (.resume 0)).entries (.resume 1) ++ (first.entries (.resume 0) ++ []) :=
    log_move_move first (.resume 0) (.resume 1)
  have hworld : first.world = .start ⟨0, 0, none⟩ .faultless := rfl
  have hother : (0 : Nat) ≠ 1 := by decide
  refine ⟨payer.http, ?_⟩
  rw [hlog]
  simp only [State.entries, own_append, List.append_nil]
  rw [own_stepEntries_of_ne hother, own_stepEntries_self htask, hworld]
  unfold Caller.task Run.Task.start Run.Task.resumeNotes
  rw [Caller.program_of_key payer_key]
  dsimp only
  rw [payer_notes]
  exact ⟨_, rfl⟩

theorem twoPayers_short : RunsAreShort twoPayers.log := by
  intro e past htold i lock token time ttl _ hholds
  rcases hholds with ⟨_, older, hgiven⟩
  have hkept := chronicle_kept (begin ⟨0, 0, none⟩ .faultless [payer, payer])
    [.move (.resume 0), .move (.resume 1)]
  have hclocks := hkept.clocks_eq (by simp)
  have hzero : e.time ≤ 0 := by
    have hle := hkept.time_le e htold.mem
    rw [hclocks] at hle
    exact hle
  have hclosed : ∀ c ∈ [payer, payer], c.config.failurePolicy = .failClosed := by simp [payer]; rfl
  rcases (account hclosed _).lockTtl_eq (hgiven.of_suffix htold) with ⟨c, hc, httl⟩
  have hpayer : c = payer := by
    have hmem := List.mem_of_getElem? hc
    simpa using hmem
  rw [httl, hpayer]
  have hpos : 0 < payer.config.lockTtl.nanos := by decide
  omega

/-- While the first of two callers pays, the second does not. -/
theorem twoPayers_never_overlap :
    RunsAreShort twoPayers.log ∧ IsServing twoPayers.log 0 ∧
      ∀ j, keyOf [payer, payer] j = some orderKey → IsServing twoPayers.log j → 0 = j := by
  refine ⟨twoPayers_short, twoPayers_serving, ?_⟩
  intro j hj hserving
  exact runs_never_overlap (by simp [payer]; rfl) twoPayers_short List.suffix_rfl payer_key hj
    twoPayers_serving hserving

end Turnstile.Once
