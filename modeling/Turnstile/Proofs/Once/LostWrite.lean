import Turnstile.Proofs.Once.AtMostOnce
import Turnstile.Proofs.Once.Lookup

/-!
# Lost writes

A caller lets go of the lock also where the store failed to keep its record.  What
such a failure leaves behind is neither a record nor a lock: whoever takes the lock
next runs its handler once more, while the response that was captured would still
be valid.  Nothing else leads to a second run in that time.

Main results:

- Theorem `runs_again_exactly_when_lost`: a second run comes of a write that was
  lost, and a write that was lost brings a second run.
- Theorem `lostPayment_runs_again`: of two payments for one order both are made if
  the store cannot keep the first receipt.
-/

namespace Turnstile.Once

open Run
open Store (Answer Call LocalStore Token)

/-! ## Looking again -/

/-- The caller found no record and took the lock. -/
def Locked (cfg : Config) (key : OperationKey) (token : Token) (past : List Note) : Prop :=
  ∃ now answer, recordOf now answer = .ok none ∧
    past = tookLock cfg key token (lookedUp key now answer [.resumed])

/-- Who has the lock and reads nothing may run its handler. -/
theorem Locked.cleared {cfg : Config} {key : OperationKey} {token : Token} {past : List Note}
    {now : Timestamp} {answer : Answer} (h : Locked cfg key token past)
    (hnothing : recordOf now answer = .ok none) :
    Cleared cfg key token (lookedUp key now answer past) := by
  rcases h with ⟨now', answer', hfirst, rfl⟩
  exact ⟨now', answer', now, answer, hfirst, hnothing, rfl⟩

/-- Under the lock, the `j`-th caller of the key looked once more: it read the clock
when the log was `behind`, it was answered when the log was `past`, and it was told
so. -/
structure LooksAgain (callers : List Caller) (log : Log) (j : Nat) (key : OperationKey)
    (now : Timestamp) (answer : Answer) (past behind : Log) : Prop where
  locked : ∃ c token, callers[j]? = some c ∧ c.key? = some key ∧
    Locked c.config key token (own j behind)
  read : ∃ t, Tells past ⟨t, some j, .read now⟩ behind
  answered : ∃ t, Tells log ⟨t, some j, .done (.get key.text) answer⟩ past
  told : lookedUp key now answer (own j behind) <:+ own j log

/-- A caller that finds nothing when it looks again runs its handler. -/
theorem LooksAgain.began {clocks : Clocks} {plan : Plan} {callers : List Caller}
    {happenings : List Happening} {run : Chronicle Result}
    (hrun : run = Chronicle.of (begin clocks plan callers) happenings) {j : Nat}
    {key : OperationKey} {now : Timestamp} {answer : Answer} {past behind : Log}
    (h : LooksAgain callers run.log j key now answer past behind)
    (hnothing : recordOf now answer = .ok none) :
    ∃ request, .began request ∈ own j run.log := by
  rcases h.locked with ⟨c, token, hc, hkey, hlocked⟩
  subst hrun
  have hbegan := began_of_cleared hc hkey (hlocked.cleared hnothing) h.told
  exact ⟨c.http, List.IsSuffix.mem List.mem_cons_self hbegan⟩

/-! ## The whole run -/

/-- After the start of a run whose response was captured to be recorded, another
run begins under the same key while the record would be valid only if the record was
lost; and if it was lost, the next caller that looks again under the lock runs its
handler. -/
theorem runs_again_exactly_when_lost {clocks : Clocks} {plan : Plan} {callers : List Caller}
    {happenings : List Happening} {run : Chronicle Result}
    (hrun : run = Chronicle.of (begin clocks plan callers) happenings)
    (hwall : Timestamp.earliest.le clocks.wall = true) (hmanual : clocks.manual = none)
    (hclosed : ∀ c ∈ callers, c.config.failurePolicy = .failClosed)
    (hclocks : ∀ e ∈ happenings, e.SetsNoClock) (hfinish : HoldersFinish callers run.log)
    {i time : Nat} {key : OperationKey} {c : Caller} {response : Http.Response}
    {captured : Timestamp} {bytes : Bytes} {request : Http.Request} {start : Log}
    (hrecords : Records callers run.log i key c response captured bytes)
    (hbegan : Tells run.log ⟨time, some i, .began request⟩ start) :
    (∀ j t request' past, keyOf callers j = some key →
      Tells run.log ⟨t, some j, .began request'⟩ past →
      Tells past ⟨time, some i, .began request⟩ start →
      ShowsBefore clocks t (captured.addSaturating c.config.cacheTtl) →
      ∃ k value ttl, .lost (.set k value ttl) ∈ own i past) ∧
    ((∃ k value ttl, .lost (.set k value ttl) ∈ own i run.log) →
      ∀ j now answer past behind, LooksAgain callers run.log j key now answer past behind →
      Tells behind ⟨time, some i, .began request⟩ start →
      (∀ x t request' older, keyOf callers x = some key →
        Tells past ⟨t, some x, .began request'⟩ older →
        ¬ Tells older ⟨time, some i, .began request⟩ start) →
      ∃ request', .began request' ∈ own j run.log) := by
  have hrecording : Recording clocks callers run.log i key c response captured bytes time request
      start := ⟨recorded_of_run hrun hwall hmanual hclosed hclocks hrecords, hfinish, hbegan⟩
  refine ⟨?_, ?_⟩
  · intro j t request' past hj hbeganJ hafter hvalid
    exact hrecording.lost_of_run hj hbeganJ hafter hvalid
  · rintro ⟨k, value, ttl, hlost⟩ j now answer past behind hlooks hafter hnone
    rcases hlooks.answered with ⟨got, hgot⟩
    rcases hlooks.read with ⟨read, hread⟩
    exact hlooks.began hrun (hrecording.nothing_found hlost hgot hread hafter hnone)

/-! ## Two payments -/

/-- The error of a store that is down. -/
def down : Store.Error := .backend "down"

/-- The store keeps nothing. -/
def keepsNothing : Plan := Plan.ofRules [⟨.set, none, ⟨none, some down, none⟩⟩]

/-- The last notes of a payment whose receipt the store does not keep. -/
def lostPaymentEnd (key : OperationKey) (token : Token) : List Note :=
  .ended :: unrecordedNotes .standard key token receipt down
    [.read .epoch, .finished (some (.ofStatus 201))]

/-- The notes of a payment whose receipt the store does not keep. -/
def lostPaymentNotes (key : OperationKey) (token : Token) (past : List Note) : List Note :=
  lostPaymentEnd key token ++ .began payment :: clearedNotes .standard key token .epoch past

/-- A payer that finds neither a record nor a lock pays, and leaves neither. -/
theorem settles_lostPayment {w : World} (hplan : w.plan = keepsNothing)
    (hclocks : w.clocks = .start .epoch none) (key : OperationKey)
    (hvalue : w.store.values.lookup key.text = none)
    (hfree : w.store.heldAt 0 key.lock = none) :
    ∃ token st, Settles promptPayer.handler w none
        (guarded promptPayer.config key (served promptPayer.http)) (lostPaymentNotes key token []) st ∧
      st.owed = none ∧ st.world.plan = keepsNothing ∧ st.world.clocks = .start .epoch none ∧
      st.world.store.values.lookup key.text = none ∧ st.world.store.heldAt 0 key.lock = none := by
  have hnow : w.clocks.now = .epoch := by
    rw [hclocks]
    decide
  have hmono : w.mono = 0 := mono_of_start hclocks
  have hlock : Store.expiry w.mono Config.standard.lockTtl =
      .ok (0 + Config.standard.lockTtl.nanos) := by
    rw [hmono]
    exact Store.expiry_ok (by decide)
  have hserves : ∀ operation, operation ≠ .set → w.Serves operation := by
    intro operation hother n
    rw [hplan]
    cases operation with
    | set => exact absurd rfl hother
    | _ => rfl
  have hfails : w.Fails .set down := by
    intro n
    rw [hplan]
    rfl
  let token : Token := .issued (w.tokens + 2)
  let cleared : World := clearedWorld w .standard key (0 + Config.standard.lockTtl.nanos)
  let responded : World := { cleared with served := w.served + 1 }
  let unrecorded : World := unrecordedWorld responded .standard key receipt down token
  have hunrecorded : Settles promptPayer.handler responded (some (.releaseLock key.lock token))
      (runHandler .standard key (pure (.ofStatus 201)) token >>= Program.done) _
      ⟨.nothing (.result (.ok (.executed (.ofStatus 201)))) unrecorded.mono, none, unrecorded⟩ :=
    settles_unrecorded hfails (hserves _ (by decide)) hnow rfl (Settles.done _ unrecorded _ _)
  have hresponded : Settles promptPayer.handler cleared (some (.releaseLock key.lock token))
      (runHandler .standard key (served payment) token >>= Program.done) _ _ :=
    Settles.serve rfl rfl hunrecorded
  have hpays : Settles promptPayer.handler w none
      (guarded .standard key (served payment) >>= Program.done) _ _ :=
    settles_cleared (hserves _ (by decide)) (hserves _ (by decide)) hnow hvalue (hmono ▸ hfree)
      hlock hresponded
  rw [← Program.bind_pure (guarded promptPayer.config key (served promptPayer.http))]
  refine ⟨token, _, hpays.of_notes_eq rfl, rfl, hplan, hclocks, ?_,
    heldAt_release_clearedWorld w .standard key _ 0⟩
  show unrecorded.store.values.lookup key.text = none
  rw [values_unrecordedWorld]
  exact hvalue

/-- Two callers pay for one order, one after the other, and the store keeps no
receipt. -/
def lostPayments : Chronicle Result :=
  .of (begin (.start .epoch none) keepsNothing [promptPayer, promptPayer])
    [.move (.resume 0), .move (.resume 1)]

/-- What the two callers note. -/
theorem lostPayments_log : ∃ token token',
    lostPayments.log = entriesOf 0 (some 1) (lostPaymentNotes orderKey token' [.resumed]) ++
      entriesOf 0 (some 0) (lostPaymentNotes orderKey token [.resumed]) := by
  let first : State Result := begin (.start .epoch none) keepsNothing [promptPayer, promptPayer]
  have hprogram := Caller.program_of_key promptPayer_key
  rcases settles_lostPayment (w := first.world) rfl rfl orderKey rfl rfl with
    ⟨token, st, hsettles, howed, hplan, hclocks, hvalue, hfree⟩
  rcases settles_lostPayment hplan hclocks orderKey hvalue hfree with ⟨token', st', hsettles', howed', _⟩
  rw [← hprogram] at hsettles hsettles'
  rcases resume_two (s := first) (t := promptPayer.task) rfl rfl hsettles howed rfl hsettles' howed'
    with ⟨hlog, _⟩
  have hmono : st.world.mono = 0 := mono_of_start hclocks
  unfold lostPayments
  rw [hlog, hmono]
  exact ⟨token, token', rfl⟩

/-- All of it happens at one instant. -/
theorem lostPayments_time : ∀ e ∈ lostPayments.log, e.time = 0 := by
  rcases lostPayments_log with ⟨token, token', hlog⟩
  intro e he
  rw [hlog] at he
  rcases List.mem_append.1 he with he | he
  · rcases List.mem_map.1 he with ⟨n, hn, rfl⟩
    rfl
  · rcases List.mem_map.1 he with ⟨n, hn, rfl⟩
    rfl

/-- Holders finish: no time passes. -/
theorem lostPayments_finish : HoldersFinish [promptPayer, promptPayer] lostPayments.log :=
  (HoldersAreQuick.of_time_zero (account promptPayers_closed _) lostPayments_time
    promptPayers_lockTtl).finish

/-- What the first caller notes lies behind what the second notes. -/
theorem lostPayments_first : ∃ older token, older <:+ lostPayments.log ∧ own 1 older = [] ∧
    own 0 lostPayments.log = own 0 older ∧
    own 0 older = lostPaymentNotes orderKey token [.resumed] := by
  rcases lostPayments_log with ⟨token, token', hlog⟩
  rw [hlog]
  refine ⟨_, token, List.suffix_append _ _, own_entriesOf_of_ne (by decide) _, ?_,
    own_entriesOf_self _ _ _⟩
  rw [own_append, own_entriesOf_of_ne (by decide), List.nil_append]

/-- The second payment runs its handler under a lock of its own. -/
theorem lostPayments_second : ∃ token,
    own 1 lostPayments.log = lostPaymentNotes orderKey token [.resumed] := by
  rcases lostPayments_log with ⟨token, token', hlog⟩
  refine ⟨token', ?_⟩
  rw [hlog, own_append, own_entriesOf_self, own_entriesOf_of_ne (by decide), List.append_nil]

/-- The first payment would have been recorded. -/
theorem lostPayments_records : Records [promptPayer, promptPayer] lostPayments.log 0 orderKey
    promptPayer (.ofStatus 201) .epoch [] := by
  rcases lostPayments_first with ⟨older, token, _, _, hown, hfirst⟩
  refine ⟨rfl, promptPayer_key, rfl,
    .ended :: unrecordedNotes .standard orderKey token receipt down [], payment, token, _,
    cleared_clearedNotes .standard orderKey token .epoch, ?_⟩
  rw [hown, hfirst]
  rfl

/-- The first run began and ended, and its record was lost, before the second caller
came. -/
theorem lostPayments_began : ∃ older start, older <:+ lostPayments.log ∧ own 1 older = [] ∧
    Tells older ⟨0, some 0, .began payment⟩ start ∧ .ended ∈ own 0 older ∧
    .lost (.set orderKey.text receipt.render promptPayer.config.cacheTtl) ∈ own 0 older := by
  rcases lostPayments_first with ⟨older, token, hs, hfresh, _, hfirst⟩
  rcases exists_of_own (lostPaymentEnd orderKey token) hfirst with ⟨t, start, hbegan, _⟩
  have ht : t = 0 := lostPayments_time _ (hbegan.of_suffix hs).mem
  subst ht
  refine ⟨older, start, hs, hfresh, hbegan, ?_, ?_⟩
  · rw [hfirst]
    exact List.mem_append_left _ List.mem_cons_self
  · rw [hfirst]
    apply List.mem_append_left
    simp [lostPaymentEnd, unrecordedNotes]
    rfl

/-- The second run begins after whatever the second caller noted nothing before. -/
theorem lostPayments_again {older : Log} (hs : older <:+ lostPayments.log)
    (hfresh : own 1 older = []) :
    ∃ past, Tells lostPayments.log ⟨0, some 1, .began payment⟩ past ∧ older <:+ past := by
  rcases lostPayments_second with ⟨token, hown⟩
  rcases exists_of_own (lostPaymentEnd orderKey token) hown with ⟨t, past, hagain, _⟩
  have ht : t = 0 := lostPayments_time _ hagain.mem
  subst ht
  exact ⟨past, hagain, hagain.suffix_of_fresh hs hfresh⟩

/-- The second caller looks again under the lock, after whatever it noted nothing
before. -/
theorem lostPayments_looks {older : Log} (hs : older <:+ lostPayments.log)
    (hfresh : own 1 older = []) :
    ∃ past behind, LooksAgain [promptPayer, promptPayer] lostPayments.log 1 orderKey .epoch
        (.value none) past behind ∧ older <:+ behind ∧ ∀ request, .began request ∉ own 1 past := by
  rcases lostPayments_second with ⟨token, hown⟩
  have htold : clearedNotes .standard orderKey token .epoch [.resumed] <:+
      own 1 lostPayments.log := by
    rw [hown]
    exact (List.suffix_cons _ _).trans (List.suffix_append _ _)
  rcases exists_of_lookedUp htold with ⟨got, past, hgot, hpast⟩
  rcases exists_of_own [.sent (.get orderKey.text)] hpast with ⟨read, behind, hread, hbehind⟩
  refine ⟨past, behind, ⟨⟨promptPayer, token, rfl, promptPayer_key, .epoch, .value none, rfl, hbehind⟩,
    ⟨read, hread⟩, ⟨got, hgot⟩, ?_⟩, (hgot.trans hread).suffix_of_fresh hs hfresh, ?_⟩
  · rw [hbehind]
    exact htold
  · intro request hmem
    rw [hpast] at hmem
    simp [tookLock, lookedUp] at hmem

/-- Its record would not have expired. -/
theorem lostPayments_valid :
    ShowsBefore (.start .epoch none) 0 (Timestamp.epoch.addSaturating promptPayer.config.cacheTtl) := by
  unfold ShowsBefore
  decide

/-- Two callers pay for one order, one after the other, and both payments are made,
since the store could not keep the first receipt. -/
theorem lostPayment_runs_again :
    ∃ start past, HoldersFinish [promptPayer, promptPayer] lostPayments.log ∧
      Records [promptPayer, promptPayer] lostPayments.log 0 orderKey promptPayer (.ofStatus 201)
        .epoch [] ∧
      Tells past ⟨0, some 0, .began payment⟩ start ∧ .ended ∈ own 0 past ∧
      .lost (.set orderKey.text receipt.render promptPayer.config.cacheTtl) ∈ own 0 past ∧
      Tells lostPayments.log ⟨0, some 1, .began payment⟩ past ∧
      ShowsBefore (.start .epoch none) 0 (Timestamp.epoch.addSaturating promptPayer.config.cacheTtl) := by
  rcases lostPayments_began with ⟨older, start, hs, hfresh, hbegan, hended, hlost⟩
  rcases lostPayments_again hs hfresh with ⟨past, hagain, hpast⟩
  exact ⟨start, past, lostPayments_finish, lostPayments_records, hbegan.of_suffix hpast,
    List.IsSuffix.mem hended (own_suffix 0 hpast), List.IsSuffix.mem hlost (own_suffix 0 hpast),
    hagain, lostPayments_valid⟩

/-- The second payment comes of the first receipt, which was lost, and as that was
lost the second caller that looks again pays. -/
theorem lostPayments_traced :
    (∃ past, Tells lostPayments.log ⟨0, some 1, .began payment⟩ past ∧
      ∃ k value ttl, .lost (.set k value ttl) ∈ own 0 past) ∧
    ∃ past behind, LooksAgain [promptPayer, promptPayer] lostPayments.log 1 orderKey .epoch
        (.value none) past behind ∧ ∃ request, .began request ∈ own 1 lostPayments.log := by
  rcases lostPayments_began with ⟨older, start, hs, hfresh, hbegan, _, hlost⟩
  rcases lostPayments_again hs hfresh with ⟨past, hagain, hpast⟩
  rcases lostPayments_looks hs hfresh with ⟨past', behind, hlooks, hbehind, hnotYet⟩
  have hkey : keyOf [promptPayer, promptPayer] 1 = some orderKey := promptPayer_key
  have hexact := runs_again_exactly_when_lost (rfl : lostPayments = _) (by decide) rfl promptPayers_closed
    (by simp [Happening.SetsNoClock]) lostPayments_finish lostPayments_records
    (hbegan.of_suffix hs)
  refine ⟨⟨past, hagain, hexact.1 1 0 payment past hkey hagain
    (hbegan.of_suffix hpast) lostPayments_valid⟩, past', behind, hlooks, ?_⟩
  refine hexact.2 ⟨_, _, _, List.IsSuffix.mem hlost (own_suffix 0 hs)⟩ 1 .epoch (.value none) past'
    behind hlooks (hbegan.of_suffix hbehind) ?_
  intro x t request' older' hx hother hfirst
  rcases x with _ | _ | x
  · rcases hlooks.answered with ⟨_, hanswered⟩
    exact began_once (account promptPayers_closed _) hx (hanswered.trans hother) hfirst
  · exact hnotYet request' (List.IsSuffix.mem List.mem_cons_self hother.own)
  · simp [keyOf] at hx

end Turnstile.Once
