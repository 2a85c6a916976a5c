import Turnstile.Proofs.Once.Recording
import Turnstile.Proofs.Run.Calm

/-!
# At most one success

Once a response was captured to be recorded, no other run of a handler begins
under its key as long as the record is valid, and whoever asks in that time is
answered with that response, or told of a conflict or of a failure of the store.
This holds in every run in which holders of locks are quick, no write is lost,
and the clocks move together.

Main results:

- Theorem `no_run_begins`: no other run begins while the record is valid.
- Theorem `succeeds_at_most_once`: that, and how the others are answered.
-/

namespace Turnstile.Once

open Run
open Store (Answer Call LocalStore Token)

section

variable {clocks : Clocks} {callers : List Caller} {log start : Log} {i time : Nat}
  {key : OperationKey} {c : Caller} {response : Http.Response} {captured : Timestamp}
  {bytes : Bytes} {request : Http.Request}

/-- What is true of a run in which a response is recorded: its handler began at
the given moment. -/
structure Success (clocks : Clocks) (callers : List Caller) (log : Log) (i : Nat)
    (key : OperationKey) (c : Caller) (response : Http.Response) (captured : Timestamp)
    (bytes : Bytes) (time : Nat) (request : Http.Request) (start : Log) : Prop where
  account : Account callers log
  quick : HoldersAreQuick callers log
  writes : NoWriteIsLost log
  clocks : MoveTogether clocks log
  records : Records callers log i key c response captured bytes
  began : Tells log ⟨time, some i, .began request⟩ start

namespace Success

variable (h : Success clocks callers log i key c response captured bytes time request start)

include h

/-- Who records a response in such a run records it in time. -/
theorem recording :
    Recording clocks callers log i key c response captured bytes time request start :=
  ⟨⟨h.account, h.clocks, h.records⟩, h.quick.finish, h.began⟩

theorem not_lost {k : String} {value : Bytes} {ttl : Span} :
    .lost (.set k value ttl) ∉ own i log := by
  intro hlost
  rcases exists_tells_of_mem hlost with ⟨_, _, htold⟩
  exact h.writes _ htold.mem k value ttl rfl

/-- No other run begins while the record is valid. -/
theorem no_run_begins {j t : Nat} {request' : Http.Request} {past : Log}
    (hj : keyOf callers j = some key) (hbegan : Tells log ⟨t, some j, .began request'⟩ past)
    (hafter : Tells past ⟨time, some i, .began request⟩ start) :
    ¬ ShowsBefore clocks t (captured.addSaturating c.config.cacheTtl) := by
  intro hvalid
  rcases h.recording.lost_of_run hj hbegan hafter hvalid with ⟨k, value, ttl, hlost⟩
  exact h.not_lost (List.IsSuffix.mem hlost (own_suffix i hbegan.suffix))

end Success

end

/-! ## The whole run -/

/-- A caller has ended with a result when the monotonic clock showed the time:
the last thing that it noted then is that it ended. -/
def EndedWith (run : Chronicle Result) (k t : Nat) (result : Result) : Prop :=
  (∃ past, Tells run.log ⟨t, some k, .ended⟩ past ∧ own k run.log = .ended :: own k past) ∧
    ∃ task moment, run.state.tasks[k]? = some task ∧ task.wait = .nothing (.result result) moment

/-- The answer is a replay of the response. -/
def IsReplayOf (response : Http.Response) (result : Result) : Prop :=
  ∃ replay, result = .ok (.replayed replay) ∧ replay.status = response.status ∧
    replay.headers = response.headers ∧ replay.body.delivered = response.body.delivered

/-- A record replays the response that was captured. -/
theorem isReplayOf_recordBy {c : Caller} {response : Http.Response} {captured : Timestamp}
    {bytes : Bytes} (hkept : captured? c.config response = some bytes)
    (hproper : response.headers.Proper) :
    IsReplayOf response (.ok (.replayed (recordBy c response captured bytes).toResponse)) := by
  rcases captured?_eq_some hkept with ⟨hsuccess, hdelivered⟩
  have hstatus : Record.isStatus response.status = true := by
    simp only [Http.isSuccess, Bool.and_eq_true, decide_eq_true_eq] at hsuccess
    simp only [Record.isStatus, Bool.and_eq_true, decide_eq_true_eq]
    omega
  refine ⟨_, rfl, ?_⟩
  unfold recordBy
  rw [Record.toResponse_eq_of_capture hproper hstatus]
  exact ⟨rfl, rfl, (Http.Body.delivered_ofBytes bytes).trans hdelivered.symm⟩

/-- A caller that has ended did so by its rules. -/
theorem ends_of_endedWith {clocks : Clocks} {plan : Plan} {callers : List Caller}
    {happenings : List Happening} (hclosed : ∀ c ∈ callers, c.config.failurePolicy = .failClosed)
    {k t : Nat} {c : Caller} {result : Result} (hc : callers[k]? = some c)
    (h : EndedWith (Chronicle.of (begin clocks plan callers) happenings) k t result) :
    ∃ past, Tells (Chronicle.of (begin clocks plan callers) happenings).log ⟨t, some k, .ended⟩
        past ∧ c.rules.ends (own k past) result ∧
      own k (Chronicle.of (begin clocks plan callers) happenings).log = .ended :: own k past := by
  rcases h with ⟨⟨past, htold, hown⟩, task, moment, htask, hwait⟩
  rcases ends_of_conduct (begins clocks plan callers) (parties_keep hclosed) (getElem?_party hc)
    htask hwait with ⟨older, hown', hends⟩
  rw [hown, List.cons.injEq] at hown'
  rw [← hown'.2] at hends
  exact ⟨past, htold, hends, hown⟩

/-- A caller with a key that has ended did so as the key allows. -/
theorem ends_of_keyOf {clocks : Clocks} {plan : Plan} {callers : List Caller}
    {happenings : List Happening} {run : Chronicle Result}
    (hrun : run = Chronicle.of (begin clocks plan callers) happenings)
    (hclosed : ∀ c ∈ callers, c.config.failurePolicy = .failClosed) {k t : Nat}
    {key : OperationKey} {result : Result} (hkey : keyOf callers k = some key)
    (h : EndedWith run k t result) :
    ∃ past, Tells run.log ⟨t, some k, .ended⟩ past ∧ mayEnd key (own k past) result ∧
      own k run.log = .ended :: own k past := by
  subst hrun
  rcases Option.bind_eq_some_iff.1 hkey with ⟨c, hc, hkeyed⟩
  rcases ends_of_endedWith hclosed hc h with ⟨past, htold, hends, hown⟩
  unfold Caller.rules at hends
  rw [hkeyed] at hends
  exact ⟨past, htold, hends, hown⟩

/-- A caller that starts after the run began and ends while the record is valid
gets a replay of the response, a conflict, or a failure of the store. -/
theorem Success.answered {clocks : Clocks} {callers : List Caller} {log start past : Log}
    {i k t time : Nat} {key : OperationKey} {c : Caller} {response : Http.Response}
    {captured : Timestamp} {bytes : Bytes} {request : Http.Request} {result : Result}
    (h : Success clocks callers log i key c response captured bytes time request start)
    (hproper : response.headers.Proper) (hk : k ≠ i) (hkey : keyOf callers k = some key)
    (hfresh : own k start = []) (hended : Tells log ⟨t, some k, .ended⟩ past)
    (hends : mayEnd key (own k past) result)
    (hvalid : ShowsBefore clocks t (captured.addSaturating c.config.cacheTtl)) :
    IsReplayOf response result ∨ result = .error .conflict ∨
      ∃ error, result = .error (.store error) := by
  -- What the caller noted, it noted after the run began.
  have hlater : ∀ {e : Nat} {n : Note} {behind : Log}, Tells past ⟨e, some k, n⟩ behind →
      Tells behind ⟨time, some i, .began request⟩ start := by
    intro e n behind htold
    have hother : own k (⟨time, some i, .began request⟩ :: start) = [] := by
      rw [own_cons_of_ne (by simpa using Ne.symm hk)]
      exact hfresh
    exact (hended.trans htold).suffix_of_fresh h.began hother
  cases result with
  | ok outcome =>
      cases outcome with
      | bypassed response' => exact hends.elim
      | executed response' =>
          rcases hends with ⟨request', hmem⟩
          rcases exists_tells_of_mem hmem with ⟨t', behind, hbegan⟩
          have hearlier := Tells.time_le h.account.sorted hended hbegan
          exact absurd (hvalid.mono hearlier)
            (h.no_run_begins hkey (hended.trans hbegan) (hlater hbegan))
      | replayed response' =>
          rcases hends with ⟨_, newer, now, answer, older, record, hown, _, hfound, rfl⟩
          have hsplit : own k past = (newer ++ [.told (.get key.text) (.ok answer)]) ++
              .done (.get key.text) answer :: .sent (.get key.text) :: .read now :: older := by
            rw [hown, List.append_assoc]
            rfl
          rcases exists_of_own _ hsplit with ⟨got, before, hgot, hbefore⟩
          rcases exists_of_own [.sent (.get key.text)] hbefore with
            ⟨read, earlier, hread, _⟩
          have hgotLe := Tells.time_le h.account.sorted hended hgot
          have heq := h.recording.found_eq (fun _ _ _ => h.not_lost) (hended.trans hgot) hread
            (hlater (hgot.trans hread)) (hvalid.mono hgotLe) hfound
          rw [heq]
          exact Or.inl (isReplayOf_recordBy h.records.kept hproper)
  | error error =>
      cases error with
      | invalidKey fault => exact hends.elim
      | conflict => exact Or.inr (Or.inl rfl)
      | store failure => exact Or.inr (Or.inr ⟨failure, rfl⟩)

/-- At most one success: after the start of a run whose response was captured to
be recorded, no run of a handler begins under the same key while the record is
valid, and every other caller of the key that starts and ends in that time gets
a replay of the response, a conflict, or a failure of the store. -/
theorem succeeds_at_most_once {clocks : Clocks} {plan : Plan} {callers : List Caller}
    {happenings : List Happening} {run : Chronicle Result}
    (hrun : run = Chronicle.of (begin clocks plan callers) happenings)
    (hwall : Timestamp.earliest.le clocks.wall = true) (hmanual : clocks.manual = none)
    (hclosed : ∀ c ∈ callers, c.config.failurePolicy = .failClosed)
    (hclocks : ∀ e ∈ happenings, e.SetsNoClock)
    (hquick : HoldersAreQuick callers run.log) (hwrites : NoWriteIsLost run.log)
    {i time : Nat} {key : OperationKey} {c : Caller} {response : Http.Response}
    {captured : Timestamp} {bytes : Bytes} {request : Http.Request} {start : Log}
    (hrecords : Records callers run.log i key c response captured bytes)
    (hproper : response.headers.Proper)
    (hbegan : Tells run.log ⟨time, some i, .began request⟩ start) :
    (∀ j t request' past, keyOf callers j = some key →
      Tells run.log ⟨t, some j, .began request'⟩ past →
      Tells past ⟨time, some i, .began request⟩ start →
      ¬ ShowsBefore clocks t (captured.addSaturating c.config.cacheTtl)) ∧
    ∀ k t result, k ≠ i → keyOf callers k = some key → own k start = [] →
      EndedWith run k t result →
      ShowsBefore clocks t (captured.addSaturating c.config.cacheTtl) →
      IsReplayOf response result ∨ result = .error .conflict ∨
        ∃ error, result = .error (.store error) := by
  subst hrun
  have haccount : Account callers
      (Chronicle.of (begin clocks plan callers) happenings).log :=
    account hclosed happenings
  have hsuccess : Success clocks callers
      (Chronicle.of (begin clocks plan callers) happenings).log i key c response
      captured bytes time request start :=
    ⟨haccount, hquick, hwrites, moveTogether_of_run (begin clocks plan callers) hwall hmanual hclocks, hrecords, hbegan⟩
  refine ⟨?_, ?_⟩
  · intro j t request' past hj hbeganJ hafter
    exact hsuccess.no_run_begins hj hbeganJ hafter
  · intro k t result hk hkey hfresh hended hvalid
    have hkeyOf := hkey
    unfold keyOf at hkey
    cases hc : callers[k]? with
    | none =>
        rw [hc] at hkey
        exact nomatch hkey
    | some ck =>
        rw [hc] at hkey
        have hkey' : ck.key? = some key := hkey
        rcases ends_of_endedWith hclosed hc hended with ⟨past, htold, hends, _⟩
        unfold Caller.rules at hends
        rw [hkey'] at hends
        exact hsuccess.answered hproper hk hkeyOf hfresh htold hends hvalid

/-! ## Two payments -/

/-- A caller whose handler pays at once. -/
def promptPayer : Caller :=
  { payer with handler := ⟨none, fun _ _ => some (.ofStatus 201)⟩ }

/-- The record of the payment. -/
def receipt : Record := recordBy promptPayer (.ofStatus 201) .epoch []

/-- The last notes of a payment that nothing stands in the way of. -/
def paymentEnd (key : OperationKey) : List Note :=
  .ended :: recordedNotes .standard key (.issued 2) receipt []

/-- The notes of a payment that nothing stands in the way of. -/
def paymentNotes (key : OperationKey) : List Note :=
  paymentEnd key ++ .read .epoch :: .finished (some (.ofStatus 201)) :: .began payment ::
    lookedUp key .epoch (.value none)
      (tookLock .standard key (.issued 2) (lookedUp key .epoch (.value none) []))

/-- A payer that finds an empty store pays, and leaves a receipt. -/
theorem settles_payment {w : World} (hw : w = .start (.start .epoch none) .faultless)
    (key : OperationKey) :
    ∃ st, Settles promptPayer.handler w none
        (guarded promptPayer.config key (served promptPayer.http)) (paymentNotes key) st ∧
      st.owed = none ∧ st.world.plan = .faultless ∧ st.world.clocks = .start .epoch none ∧
      ∃ expiresAt, 0 < expiresAt ∧
        st.world.store.values.lookup key.text = some ⟨receipt.render, expiresAt⟩ := by
  have hlock : Store.expiry 0 Config.standard.lockTtl = .ok (0 + Config.standard.lockTtl.nanos) :=
    Store.expiry_ok (by decide)
  have hcache : Store.expiry 0 Config.standard.cacheTtl = .ok (0 + Config.standard.cacheTtl.nanos) :=
    Store.expiry_ok (by decide)
  have hnow : (Clocks.start .epoch none).now = .epoch := by decide
  subst hw
  have hpays : Settles promptPayer.handler (.start (.start .epoch none) .faultless) none
      (guarded .standard key (served payment)) _ _ :=
    settles_executed (fun _ _ => rfl) hnow rfl rfl hlock hcache rfl rfl rfl
  exact ⟨_, hpays.of_notes_eq rfl, rfl, rfl, rfl, 0 + Config.standard.cacheTtl.nanos, by decide,
    lookup_recordedWorld _ _ _ _ _ _⟩

/-- The receipt can be stored. -/
theorem storable_receipt : receipt.Storable := by
  have hshown : ShowsBefore (.start .epoch none) 0
      (((Clocks.start .epoch none).wallAt 0).addSaturating Config.standard.cacheTtl) := by
    unfold ShowsBefore
    decide
  have hepoch : (Clocks.start .epoch none).wallAt 0 = .epoch := by decide
  have hstorable : (recordBy promptPayer (.ofStatus 201) ((Clocks.start .epoch none).wallAt 0)
      []).Storable :=
    storable_recordBy (by decide) rfl (Nat.le_refl 0) (Nat.le_refl 0)
      hshown
  rw [hepoch] at hstorable
  exact hstorable

/-- The notes of a payer that finds the receipt. -/
def replayNotes (key : OperationKey) : List Note :=
  .ended :: .emitted (.cacheHit key.text) ::
    lookedUp key .epoch (.value (some receipt.render)) []

/-- A payer that finds the receipt gets it. -/
theorem settles_replay {w : World} (hplan : w.plan = .faultless)
    (hclocks : w.clocks = .start .epoch none) {key : OperationKey} {expiresAt : Nat}
    (hpos : 0 < expiresAt)
    (hvalue : w.store.values.lookup key.text = some ⟨receipt.render, expiresAt⟩) :
    ∃ st, Settles promptPayer.handler w none
        (guarded promptPayer.config key (served promptPayer.http)) (replayNotes key) st ∧
      st.owed = none ∧
      st.wait = .nothing (.result (.ok (.replayed receipt.toResponse))) w.mono := by
  have hnow : w.clocks.now = .epoch := by
    rw [hclocks]
    decide
  have hmono : w.mono = 0 := mono_of_start hclocks
  have hlive : w.mono < expiresAt := by
    rw [hmono]
    exact hpos
  rw [← Program.bind_pure (guarded promptPayer.config key (served promptPayer.http))]
  exact ⟨_, settles_replayed (World.serves_of_faultless hplan _) hnow hvalue hlive storable_receipt (by decide)
    (Settles.done _ _ _ _), rfl, rfl⟩

/-- The payer has a key. -/
theorem promptPayer_key : promptPayer.key? = some orderKey := payer_key

/-- Two callers pay for one order, one after the other. -/
def twoPayments : Chronicle Result :=
  .of (begin (.start .epoch none) .faultless [promptPayer, promptPayer])
    [.move (.resume 0), .move (.resume 1)]

/-- What the two callers note, and how the second ends. -/
theorem twoPayments_log :
    twoPayments.log = entriesOf 0 (some 1) (replayNotes orderKey ++ [.resumed]) ++
        entriesOf 0 (some 0) (paymentNotes orderKey ++ [.resumed]) ∧
      ∃ task, twoPayments.state.tasks[1]? = some task ∧
        task.wait = .nothing (.result (.ok (.replayed receipt.toResponse))) 0 := by
  let first : State Result := begin (.start .epoch none) .faultless [promptPayer, promptPayer]
  have hprogram := Caller.program_of_key promptPayer_key
  rcases settles_payment (w := first.world) rfl orderKey with
    ⟨st, hsettles, howed, hplan, hclocks, expiresAt, hpos, hvalue⟩
  rcases settles_replay hplan hclocks hpos hvalue with ⟨st', hsettles', howed', hwait⟩
  rw [← hprogram] at hsettles hsettles'
  rcases resume_two (s := first) (t := promptPayer.task) rfl rfl hsettles howed rfl hsettles' howed'
    with ⟨hlog, hstate⟩
  have hmono : st.world.mono = 0 := mono_of_start hclocks
  unfold twoPayments
  rw [hlog, hstate, hmono]
  exact ⟨rfl, _, rfl, hmono ▸ hwait⟩

/-- The log has the notes of a payment and of its replay, all at one instant. -/
theorem twoPayments_entry {e : Entry} (he : e ∈ twoPayments.log) :
    e.time = 0 ∧ (e.note ∈ replayNotes orderKey ++ [.resumed] ∨
      e.note ∈ paymentNotes orderKey ++ [.resumed]) := by
  rw [twoPayments_log.1] at he
  rcases List.mem_append.1 he with he | he
  · rcases List.mem_map.1 he with ⟨n, hn, rfl⟩
    exact ⟨rfl, Or.inl hn⟩
  · rcases List.mem_map.1 he with ⟨n, hn, rfl⟩
    exact ⟨rfl, Or.inr hn⟩

/-- Both payers fail closed. -/
theorem promptPayers_closed :
    ∀ c ∈ [promptPayer, promptPayer], c.config.failurePolicy = .failClosed := by
  intro c hc
  have hpayer : c = promptPayer := by simpa using hc
  rw [hpayer]
  rfl

/-- The lock of a payer lasts. -/
theorem promptPayers_lockTtl : ∀ c ∈ [promptPayer, promptPayer], 0 < c.config.lockTtl.nanos := by
  intro c hc
  have hpayer : c = promptPayer := by simpa using hc
  rw [hpayer]
  decide

/-- Both payers are quick: no time passes. -/
theorem twoPayments_quick : HoldersAreQuick [promptPayer, promptPayer] twoPayments.log :=
  .of_time_zero (account promptPayers_closed _) (fun _ he => (twoPayments_entry he).1)
    promptPayers_lockTtl

/-- No write of theirs is lost. -/
theorem twoPayments_writes : NoWriteIsLost twoPayments.log := by
  intro e he key value ttl heq
  rcases (twoPayments_entry he).2 with hn | hn
  · rw [heq] at hn
    simp [replayNotes, lookedUp] at hn
  · rw [heq] at hn
    simp [paymentNotes, paymentEnd, recordedNotes, lookedUp, tookLock] at hn

/-- The first of them records its response. -/
theorem twoPayments_records : Records [promptPayer, promptPayer] twoPayments.log 0 orderKey
    promptPayer (.ofStatus 201) .epoch [] := by
  have hown : own 0 twoPayments.log = paymentNotes orderKey ++ [.resumed] := by
    rw [twoPayments_log.1, own_append, own_entriesOf_of_ne (by decide), own_entriesOf_self]
    rfl
  refine ⟨rfl, promptPayer_key, rfl, paymentEnd orderKey, payment, .issued 2, _,
    ⟨.epoch, .value none, .epoch, .value none, rfl, rfl, rfl⟩, ?_⟩
  rw [hown]
  rfl

/-- The first began to pay before the second came. -/
theorem twoPayments_began :
    ∃ start, Tells twoPayments.log ⟨0, some 0, .began payment⟩ start ∧ own 1 start = [] := by
  have hown : own 0 (entriesOf 0 (some 0) (paymentNotes orderKey ++ [.resumed])) =
      (paymentEnd orderKey ++ [.read .epoch, .finished (some (.ofStatus 201))]) ++
        .began payment :: lookedUp orderKey .epoch (.value none) (tookLock .standard orderKey
          (.issued 2) (lookedUp orderKey .epoch (.value none) [.resumed])) := by
    rw [own_entriesOf_self]
    rfl
  rcases exists_of_own _ hown with ⟨t, start, hbegan, _⟩
  have hnow : Tells twoPayments.log ⟨t, some 0, .began payment⟩ start := by
    rw [twoPayments_log.1]
    exact hbegan.of_suffix (List.suffix_append _ _)
  have ht : t = 0 := (twoPayments_entry hnow.mem).1
  have hother := own_suffix 1 hbegan.suffix
  rw [own_entriesOf_of_ne (show some 0 ≠ some 1 by decide)] at hother
  subst ht
  exact ⟨start, hnow, List.suffix_nil.1 hother⟩

/-- The second ended with a replay. -/
theorem twoPayments_ended : EndedWith twoPayments 1 0 (.ok (.replayed receipt.toResponse)) := by
  rcases twoPayments_log with ⟨hlog, task, htask, hwait⟩
  have hown : own 1 twoPayments.log = [] ++ .ended :: .emitted (.cacheHit orderKey.text) ::
      lookedUp orderKey .epoch (.value (some receipt.render)) [.resumed] := by
    rw [hlog, own_append, own_entriesOf_of_ne (show some 0 ≠ some 1 by decide), own_entriesOf_self,
      List.append_nil]
    rfl
  rcases exists_of_own _ hown with ⟨t, past, htold, hpast⟩
  have ht : t = 0 := (twoPayments_entry htold.mem).1
  subst ht
  rw [← hpast] at hown
  exact ⟨⟨past, htold, hown⟩, task, 0, htask, hwait⟩

/-- The second of two payers gets a replay of the one payment, if not a conflict
or a failure of the store. -/
theorem twoPayments_succeed_once :
    ∃ result, EndedWith twoPayments 1 0 result ∧
      (IsReplayOf (.ofStatus 201) result ∨ result = .error .conflict ∨
        ∃ error, result = .error (.store error)) := by
  rcases twoPayments_began with ⟨start, hbegan, hfresh⟩
  have hproper : (Http.Response.ofStatus 201).headers.Proper :=
    ⟨List.nodup_nil, nofun, nofun, nofun⟩
  have hkey : keyOf [promptPayer, promptPayer] 1 = some orderKey := promptPayer_key
  have hvalid : ShowsBefore (.start .epoch none) 0
      (Timestamp.epoch.addSaturating promptPayer.config.cacheTtl) := by
    unfold ShowsBefore
    decide
  refine ⟨_, twoPayments_ended, ?_⟩
  exact (succeeds_at_most_once (rfl : twoPayments = _) (by decide) rfl promptPayers_closed
    (by simp [Happening.SetsNoClock]) twoPayments_quick twoPayments_writes twoPayments_records hproper
    hbegan).2 1 0 _ (by decide) hkey hfresh twoPayments_ended hvalid

end Turnstile.Once
