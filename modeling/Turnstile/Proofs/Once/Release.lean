import Turnstile.Proofs.Once.Custody
import Turnstile.Proofs.Once.Exclusion
import Turnstile.Proofs.Store.ExpiringMaps

/-!
# The release of a lock

A caller that was told the token of a lock comes to its end only after it began
the release, or left it behind to be begun at once.  Whatever else went wrong, the
lock is not held any more once that release has taken effect, and nobody else's
lock is touched.

The run may hold any other tasks: callers, other programs, in any number.

Main results:

- Theorem `TakesPart.closed`: a caller that has ended has let go of its lock.
- Theorem `TakesPart.release_done`: the release of a caller that has ended takes
  effect, unless it is lost or still in flight.
- Theorem `released_on_every_exit`: whichever way a caller ends, its last call is the
  one release of its lock, and the lock is gone after it.
-/

namespace Turnstile.Once

open Run
open Store (Answer Call HeldLock LocalStore Token)

/-- The caller takes part in a run as its `i`-th task; at the start the store has no
entries. -/
structure TakesPart (s : State Result) (i : Nat) (c : Caller) : Prop where
  task : s.tasks[i]? = some c.task
  fits : ∀ t ∈ s.tasks, t.Fits
  store : s.world.store = .empty

section

variable {callers : List Caller} {i : Nat}

/-- Each of several callers takes part. -/
theorem takesPart_begin {c : Caller} (hc : callers[i]? = some c) (clocks : Clocks) (plan : Plan) :
    TakesPart (begin clocks plan callers) i c := by
  have hbegins := begins clocks plan callers
  refine ⟨?_, hbegins.fits, hbegins.store⟩
  simp [begin, hc]

/-- Whoever notes something takes part. -/
theorem exists_takesPart {clocks : Clocks} {plan : Plan} {happenings : List Happening} {n : Note}
    (hn : n ∈ own i (Chronicle.of (begin clocks plan callers) happenings).log) :
    ∃ c, TakesPart (begin clocks plan callers) i c := by
  cases hc : callers[i]? with
  | some c => exact ⟨c, takesPart_begin hc clocks plan⟩
  | none =>
      have hnothing := (chronicle_path (begins clocks plan callers).fits happenings).outside i
        (by simp [begin, hc])
      rw [hnothing] at hn
      exact nomatch hn

end

section

variable {s : State Result} {i : Nat} {c : Caller} {happenings : List Happening} {t : Run.Task Result}
  {lock : String} {token : Token}

theorem TakesPart.exists_task (h : TakesPart s i c) (happenings : List Happening) :
    ∃ t, (Chronicle.of s happenings).state.tasks[i]? = some t := by
  have hlt : i < (Chronicle.of s happenings).state.tasks.length := by
    rw [(chronicle_path h.fits happenings).length]
    exact (List.getElem?_eq_some_iff.1 h.task).1
  exact ⟨_, List.getElem?_eq_getElem hlt⟩

/-- The caller stands where its notes lead, and keeps custody of its lock. -/
theorem TakesPart.conduct (h : TakesPart s i c)
    (ht : (Chronicle.of s happenings).state.tasks[i]? = some t) :
    Path c.handler c.task.stage (own i (Chronicle.of s happenings).log) t.stage ∧
      Lawful c.handler (keepingCustody : Pact Result) (own i (Chronicle.of s happenings).log) ∧
      t.stage.Keeps c.handler keepingCustody (own i (Chronicle.of s happenings).log) := by
  rcases (chronicle_path h.fits happenings).path i c.task t h.task ht with ⟨_, _, hpath⟩
  exact ⟨hpath, conduct_of_path c.keeps_custody hpath⟩

/-- A caller that has ended has let go of its lock, if it was told a token. -/
theorem TakesPart.closed (h : TakesPart s i c)
    (ht : (Chronicle.of s happenings).state.tasks[i]? = some t) (hended : t.hasEnded = true) :
    (custody (own i (Chronicle.of s happenings).log)).IsClosed := by
  rcases h.conduct ht with ⟨hpath, hlawful, hstage⟩
  rcases point_of_hasEnded hended with ⟨result, hpoint⟩ | hpoint
  · unfold Stage.Keeps at hstage
    rw [hpoint] at hstage
    rcases hstage with ⟨older, hown, hclosed⟩
    have hsame : (custody older).after .ended = custody older := by cases custody older <;> rfl
    rw [hown, custody_cons, hsame]
    exact hclosed
  · rcases hpath.quit_of_over (by simp [Caller.task, Run.Task.start, Task.stage, Wait.stage]) hpoint
      with ⟨owed, older, hown⟩
    rw [hown] at hlawful ⊢
    exact Custody.closed_after_quit ((hlawful _ older List.suffix_rfl).2 trivial)

/-- The last call of a caller that was told a token and has ended is the release of
its lock, and no call before it is a release. -/
theorem TakesPart.last_call (h : TakesPart s i c)
    (ht : (Chronicle.of s happenings).state.tasks[i]? = some t) (hended : t.hasEnded = true)
    {ttl : Span} (htold : toldToken lock ttl token ∈ own i (Chronicle.of s happenings).log) :
    ∃ earlier, callsBy i (Chronicle.of s happenings).log = .releaseLock lock token :: earlier ∧
      ∀ call ∈ earlier, ¬ IsRelease call := by
  rw [chronicle_callsBy h.fits]
  exact (inCustody_of_lawful (h.conduct ht).2.1).releases (h.closed ht hended) htold

/-- A release lies after the call that took the lock. -/
theorem TakesPart.taken_before (h : TakesPart s i c)
    (ht : (Chronicle.of s happenings).state.tasks[i]? = some t) {past : Log} {n : Note}
    {older : List Note} (hpast : past <:+ (Chronicle.of s happenings).log)
    (hn : n :: older <:+ own i past)
    (hcall : n.call? = some (.releaseLock lock token)) :
    ∃ time ttl behind,
      Tells past ⟨time, some i, .done (.acquireLock lock ttl) (.token (some token))⟩ behind := by
  have hlawful := (h.conduct ht).2.1
  have hnotes := hn.trans (own_suffix i hpast)
  rcases told_before_release hlawful hnotes hcall with ⟨ttl, htold⟩
  have hbefore := hlawful.of_suffix ((List.suffix_cons n older).trans hnotes)
  have htaken : .done (.acquireLock lock ttl) (.token (some token)) ∈ own i past :=
    List.IsSuffix.mem (done_of_told hbefore htold) ((List.suffix_cons _ _).trans hn)
  rcases exists_tells_of_mem htaken with ⟨time, behind, hdone⟩
  exact ⟨time, ttl, behind, hdone⟩

/-- The release that a caller that has ended began last, or left behind, is carried
out after the call that took the lock, unless it is lost or still in flight. -/
theorem TakesPart.release_done (h : TakesPart s i c)
    (ht : (Chronicle.of s happenings).state.tasks[i]? = some t) (hended : t.hasEnded = true)
    {earlier : List Call}
    (hlast : callsBy i (Chronicle.of s happenings).log = .releaseLock lock token :: earlier)
    (hkept : ∀ e ∈ (Chronicle.of s happenings).log, e.note ≠ .lost (.releaseLock lock token))
    (harrived : ¬ Pending (Chronicle.of s happenings).state.detached (.releaseLock lock token)) :
    ∃ time who answer past time' ttl behind,
      Tells (Chronicle.of s happenings).log ⟨time, who, .done (.releaseLock lock token) answer⟩ past ∧
      Tells past ⟨time', some i, .done (.acquireLock lock ttl) (.token (some token))⟩ behind := by
  rcases h.conduct ht with ⟨hpath, _, _⟩
  rcases exists_of_callsBy hlast with ⟨sent, who, before, hsent, rfl | ⟨rfl, hleft⟩⟩
  · -- The caller began the release itself, and waited for its end.
    rcases hpath.after_sent hsent.own with ⟨next, hcalling⟩ | ⟨answer, houtcome⟩
    · rcases point_of_hasEnded hended with ⟨result, hpoint⟩ | hpoint
      · exact nomatch hcalling.symm.trans hpoint
      · exact nomatch hcalling.symm.trans hpoint
    · rcases houtcome with ⟨newer, hown⟩
      rcases exists_of_own newer hown.symm with ⟨time, past, hdone, hpast⟩
      cases answer with
      | none => exact absurd rfl (hkept _ hdone.mem)
      | some answer =>
          have hbegan : .sent (.releaseLock lock token) :: own i before <:+ own i past :=
            hpast ▸ List.suffix_rfl
          rcases h.taken_before ht hdone.suffix hbegan rfl with ⟨time', ttl, behind, htaken⟩
          exact ⟨time, some i, answer, past, time', ttl, behind, hdone, htaken⟩
  · -- The caller broke off, and left the release behind.
    rcases hleft.exists_quit with ⟨quitTime, owed, behindQuit, rfl⟩
    have hquitTold := hsent.trans (Tells.last _ _)
    have hall := hpath.after_quit hquitTold.own
    have howed : owed = .releaseLock lock token := by
      rw [chronicle_callsBy h.fits, hall] at hlast
      exact (List.cons.inj hlast).1
    subst howed
    rcases chronicle_carried s happenings sent _ _ hsent with hpending | hcarried
    · exact absurd hpending harrived
    · rcases hcarried with ⟨time, answer, past, hdone, hbegun⟩
      cases answer with
      | none => exact absurd rfl (hkept _ hdone.mem)
      | some answer =>
          have hleftBehind := (hbegun.trans (Tells.last _ _)).own
          rcases h.taken_before ht hdone.suffix hleftBehind rfl with
            ⟨time', ttl, behind, htaken⟩
          exact ⟨time, none, answer, past, time', ttl, behind, hdone, htaken⟩

/-- The lock of a caller that has ended is not held under its token, unless the release
is lost or still in flight. -/
theorem TakesPart.not_held (h : TakesPart s i c)
    (ht : (Chronicle.of s happenings).state.tasks[i]? = some t) (hended : t.hasEnded = true)
    {ttl : Span} (htold : toldToken lock ttl token ∈ own i (Chronicle.of s happenings).log)
    (hkept : ∀ e ∈ (Chronicle.of s happenings).log, e.note ≠ .lost (.releaseLock lock token))
    (harrived : ¬ Pending (Chronicle.of s happenings).state.detached (.releaseLock lock token))
    {key : String} {held : HeldLock}
    (hlookup : (Chronicle.of s happenings).state.world.store.locks.lookup key = some held) :
    held.token ≠ token := by
  rcases h.last_call ht hended htold with ⟨earlier, hcalls, _⟩
  rcases h.release_done ht hended hcalls hkept harrived with
    ⟨time, who, answer, past, time', ttl', behind, hreleased, htaken⟩
  have hran := (chronicle_kept s happenings).ran h.store
  exact hran.not_held_of_released hreleased.deed htaken.deed ⟨rfl, rfl⟩ rfl hlookup

/-- Whichever way a caller ends that was told the token of a lock, the last call that
it makes is the one release of that lock under that token.  Once this release has
taken effect, the table of locks does not hold the token any more, and it takes no
lock out of the table that is held under another token. -/
theorem released_on_every_exit (h : TakesPart s i c) {run : Chronicle Result}
    (hrun : run = Chronicle.of s happenings) (ht : run.state.tasks[i]? = some t)
    (hended : t.hasEnded = true) {ttl : Span} (htold : toldToken lock ttl token ∈ own i run.log) :
    (∃ earlier, callsBy i run.log = .releaseLock lock token :: earlier ∧
      ∀ call ∈ earlier, ¬ IsRelease call) ∧
    ((∀ e ∈ run.log, e.note ≠ .lost (.releaseLock lock token)) →
      ¬ Pending run.state.detached (.releaseLock lock token) →
      ∀ key held, run.state.world.store.locks.lookup key = some held → held.token ≠ token) ∧
    ∀ (before : LocalStore) (now : Nat) (fresh : Token) (answer : Answer) (after : LocalStore),
      before.perform now fresh (.releaseLock lock token) = .ok (answer, after) →
      ∀ key held, before.locks.lookup key = some held → held.token ≠ token →
        after.locks.lookup key = some held := by
  subst hrun
  refine ⟨h.last_call ht hended htold, ?_, ?_⟩
  · intro hkept harrived key held hlookup
    exact h.not_held ht hended htold hkept harrived hlookup
  · intro before now fresh answer after hdone key held hlookup htoken
    rw [(LocalStore.perform_release hdone).2]
    exact LocalStore.lookup_release_of_ne hlookup htoken

end

/-! ## A payment that breaks off -/

/-- A caller whose handler breaks off. -/
def crashingPayer : Caller :=
  { payer with handler := ⟨none, fun _ _ => none⟩ }

theorem crashingPayer_key : crashingPayer.key? = some orderKey := payer_key

/-- A caller pays, and its handler breaks off. -/
def crashedPayment : Chronicle Result :=
  .of (begin ⟨0, 0, none⟩ .faultless [crashingPayer]) [.move (.resume 0)]

/-- What the caller notes until its handler has broken off. -/
def crashedNotes (key : OperationKey) : List Note :=
  .quit (some (.releaseLock key.lock (.issued 2))) :: .finished none :: .began payment ::
    clearedNotes .standard key (.issued 2) (.ofTotalNanos 0) []

/-- A payer whose handler breaks off owes the release of its lock. -/
theorem settles_crashedPayment (key : OperationKey) :
    ∃ time w, Settles crashingPayer.handler (.start ⟨0, 0, none⟩ .faultless) none
        (guarded crashingPayer.config key (served crashingPayer.http)) (crashedNotes key)
        ⟨.nothing .crashed time, some (.releaseLock key.lock (.issued 2)), w⟩ ∧
      w.plan = .faultless ∧ w.mono = 0 := by
  have hexpiry : Store.expiry 0 Config.standard.lockTtl =
      .ok (0 + Config.standard.lockTtl.nanos) := Store.expiry_ok (by decide)
  have hcrashes : Settles crashingPayer.handler (.start ⟨0, 0, none⟩ .faultless) none
      (guarded .standard key (served payment) >>= Program.done) _ _ :=
    settles_cleared (fun _ => rfl) (fun _ => rfl) rfl rfl rfl hexpiry (Settles.serve_breaks rfl rfl)
  rw [← Program.bind_pure (guarded crashingPayer.config key (served crashingPayer.http))]
  exact ⟨_, _, hcrashes.of_notes_eq rfl, rfl, rfl⟩

/-- What is noted of the payment, and where the run stands after it. -/
theorem crashedPayment_log :
    crashedPayment.log =
        entriesOf 0 none [.done (.releaseLock orderKey.lock (.issued 2)) .done,
          .sent (.releaseLock orderKey.lock (.issued 2))] ++
          (entriesOf 0 (some 0) (crashedNotes orderKey ++ [.resumed]) ++ []) ∧
      crashedPayment.state.detached = [] ∧
      ∃ task, crashedPayment.state.tasks[0]? = some task ∧ task.hasEnded = true := by
  let first : State Result := begin ⟨0, 0, none⟩ .faultless [crashingPayer]
  rcases settles_crashedPayment orderKey with ⟨time, w, hsettles, hplan, hmono⟩
  have hprogram := Caller.program_of_key crashingPayer_key
  have hserves := World.serves_of_faultless hplan Store.Operation.releaseLock
  rw [← hprogram] at hsettles
  have hcrashes := resume_leaves (s := first) (i := 0) (t := crashingPayer.task) rfl rfl hsettles
    hserves rfl
  rw [hmono] at hcrashes
  have hmove := after_move (h := ⟨first, []⟩) (m := .resume 0) hcrashes
  have hcrashed : crashedPayment = _ := hmove
  rw [hcrashed]
  exact ⟨rfl, rfl, _, rfl, rfl⟩

/-- A payer whose handler breaks off leaves the release of its lock behind, which is
its only one, and the lock is not held after it. -/
theorem crashedPayment_released :
    (∃ earlier, callsBy 0 crashedPayment.log = .releaseLock orderKey.lock (.issued 2) :: earlier ∧
      ∀ call ∈ earlier, ¬ IsRelease call) ∧
    ∀ key held, crashedPayment.state.world.store.locks.lookup key = some held →
      held.token ≠ .issued 2 := by
  rcases crashedPayment_log with ⟨hlog, hdetached, task, htask, hended⟩
  have hpart : TakesPart (begin ⟨0, 0, none⟩ .faultless [crashingPayer]) 0 crashingPayer :=
    takesPart_begin rfl _ _
  have htold : toldToken orderKey.lock Config.standard.lockTtl (.issued 2) ∈
      own 0 crashedPayment.log := by
    rw [hlog]
    simp [own_entriesOf_of_ne, crashedNotes, clearedNotes, lookedUp, tookLock, toldToken]
  have hkept : ∀ e ∈ crashedPayment.log,
      e.note ≠ .lost (.releaseLock orderKey.lock (.issued 2)) := by
    rw [hlog]
    simp [entriesOf, crashedNotes, clearedNotes, lookedUp, tookLock]
  have harrived : ¬ Pending crashedPayment.state.detached
      (.releaseLock orderKey.lock (.issued 2)) := by
    rw [hdetached]
    simp [Pending]
  have hreleased := released_on_every_exit hpart (rfl : crashedPayment = _) htask hended htold
  exact ⟨hreleased.1, hreleased.2.1 hkept harrived⟩

end Turnstile.Once
