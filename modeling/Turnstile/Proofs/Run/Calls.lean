import Turnstile.Proofs.Run.Conduct
import Turnstile.Proofs.Run.Remains

/-!
# The calls of a task

A task begins calls itself, and what it owes to the store when it breaks off or is
cancelled is begun for it at once.  Which calls these are can be told from its own
notes.  Every one of them is carried out or given up, unless it is still in
flight, and what becomes of a call is what the task is told next, if it does not
break off first.

Main results:

- Theorem `chronicle_callsBy`: the calls that a log tells of a task are those that
  its own notes tell.
- Theorem `chronicle_carried`: a call that was left behind is in flight until it is
  carried out or given up.
- Theorems `Path.after_sent` and `Path.after_outcome`: what follows the beginning
  of a call, and what follows its end.
-/

namespace Turnstile.Run

open Store (Answer Call)

variable {α : Type}

/-! ## Which calls they are -/

/-- The call that a note begins. -/
def Note.begins? : Note → Option Call
  | .sent call => some call
  | _ => none

/-- The call that a note leaves behind. -/
def Note.leaves? : Note → Option Call
  | .quit owed => owed
  | _ => none

/-- The call that a note begins or leaves behind. -/
def Note.call? (n : Note) : Option Call :=
  n.begins?.or n.leaves?

/-- The calls that a task began or left behind, the last one first. -/
def callsOf (notes : List Note) : List Call :=
  notes.filterMap Note.call?

/-- The last entry is that the task quit and left a call behind. -/
def LeftLast (i : Nat) : Log → Prop
  | ⟨_, some j, .quit (some _)⟩ :: _ => j = i
  | _ => False

instance (i : Nat) (log : Log) : Decidable (LeftLast i log) := by
  unfold LeftLast
  split <;> infer_instance

/-- The calls of a log that the task began, or that were begun for it right when it
quit, the last one first. -/
def callsBy (i : Nat) : Log → List Call
  | [] => []
  | ⟨_, who, .sent call⟩ :: past =>
      if who = some i ∨ (who = none ∧ LeftLast i past) then call :: callsBy i past
      else callsBy i past
  | _ :: past => callsBy i past

section

variable {i j t : Nat} {who : Option Nat} {notes older : List Note} {log past : Log}

/-- The calls of notes are those of the last note and those before. -/
@[simp]
theorem callsOf_cons (n : Note) (notes : List Note) :
    callsOf (n :: notes) = n.call?.toList ++ callsOf notes := by
  unfold callsOf
  cases h : n.call? <;> simp [h]

/-- The calls of notes that follow each other follow each other. -/
@[simp]
theorem callsOf_append (notes older : List Note) :
    callsOf (notes ++ older) = callsOf notes ++ callsOf older := by
  simp [callsOf]

/-- Notes that leave nothing behind tell of the calls that they begin. -/
theorem callsOf_of_left_nil (h : notes.filterMap Note.leaves? = []) :
    callsOf notes = notes.filterMap Note.begins? := by
  induction notes with
  | nil => rfl
  | cons n notes ih =>
      have hnone := List.filterMap_eq_nil_iff.1 h n List.mem_cons_self
      have hrest := ih (List.filterMap_eq_nil_iff.2 fun n' hn' =>
        List.filterMap_eq_nil_iff.1 h n' (List.mem_cons_of_mem _ hn'))
      rw [callsOf_cons, hrest, Note.call?, hnone, Option.or_none]
      cases hbegins : n.begins? with
      | none => rw [List.filterMap_cons_none hbegins]; rfl
      | some call => rw [List.filterMap_cons_some hbegins]; rfl

/-- An entry that begins no call adds none. -/
theorem callsBy_cons_of_not_sent {n : Note} (h : n.begins? = none) :
    callsBy i (⟨t, who, n⟩ :: past) = callsBy i past := by
  cases n with
  | sent call => exact nomatch h
  | _ => rfl

/-- An entry of the task itself adds the call that it begins. -/
theorem callsBy_cons_self (i t : Nat) (n : Note) (past : Log) :
    callsBy i (⟨t, some i, n⟩ :: past) = n.begins?.toList ++ callsBy i past := by
  cases n with
  | sent call => simp [callsBy, Note.begins?]
  | _ => rfl

/-- What a task notes begins its calls. -/
theorem callsBy_entriesOf_self (i t : Nat) (notes : List Note) (log : Log) :
    callsBy i (entriesOf t (some i) notes ++ log) =
      notes.filterMap Note.begins? ++ callsBy i log := by
  induction notes with
  | nil => rfl
  | cons n notes ih =>
      simp only [entriesOf, List.map_cons, List.cons_append, callsBy_cons_self]
      rw [show callsBy i (notes.map (fun n => (⟨t, some i, n⟩ : Entry)) ++ log) = _ from ih]
      cases h : n.begins? <;> simp [h]

/-- What another task notes begins none. -/
theorem callsBy_entriesOf_of_ne (hj : j ≠ i) (notes : List Note) (log : Log) :
    callsBy i (entriesOf t (some j) notes ++ log) = callsBy i log := by
  induction notes with
  | nil => rfl
  | cons n notes ih =>
      cases n with
      | sent call =>
          have hnot : ¬ ((some j : Option Nat) = some i ∨ ((some j : Option Nat) = none ∧
              LeftLast i (entriesOf t (some j) notes ++ log))) := by simp [hj]
          exact (if_neg hnot).trans ih
      | _ => exact ih

/-- Notes that begin nothing tell of no calls. -/
theorem callsBy_entriesOf_of_none (h : ∀ n ∈ notes, n.begins? = none) (log : Log) :
    callsBy i (entriesOf t who notes ++ log) = callsBy i log := by
  induction notes with
  | nil => rfl
  | cons n notes ih =>
      have hn := h n List.mem_cons_self
      have hrest := ih fun n' hn' => h n' (List.mem_cons_of_mem _ hn')
      exact (callsBy_cons_of_not_sent hn).trans hrest

/-- The last entry of such a log is that the task quit. -/
theorem LeftLast.exists_quit (h : LeftLast i log) :
    ∃ t owed past, log = ⟨t, some i, .quit (some owed)⟩ :: past := by
  unfold LeftLast at h
  split at h
  · exact ⟨_, _, _, by rw [h]⟩
  · exact h.elim

/-- The last of a task's calls stands in the log. -/
theorem exists_of_callsBy {call : Call} {earlier : List Call} (h : callsBy i log = call :: earlier) :
    ∃ t who past, Tells log ⟨t, who, .sent call⟩ past ∧
      (who = some i ∨ (who = none ∧ LeftLast i past)) := by
  induction log with
  | nil => exact nomatch h
  | cons e past ih =>
      rcases e with ⟨t, who, n⟩
      by_cases hlast : ∃ c, n = .sent c ∧ (who = some i ∨ (who = none ∧ LeftLast i past))
      · rcases hlast with ⟨c, rfl, hwho⟩
        simp only [callsBy, if_pos hwho, List.cons.injEq] at h
        exact ⟨t, who, past, h.1 ▸ Tells.last _ _, hwho⟩
      · have hpast : callsBy i past = call :: earlier := by
          rw [← h]
          cases n with
          | sent c => exact (if_neg fun hwho => hlast ⟨c, rfl, hwho⟩).symm
          | _ => rfl
        rcases ih hpast with ⟨t', who', past', htold, hwho⟩
        exact ⟨t', who', past', htold.of_suffix (List.suffix_cons _ _), hwho⟩

end

/-! ## Notes of calls -/

/-- A call that was begun is in flight as itself, or was carried out or given up. -/
theorem flight_or_outcome_of_send (w : World) (call : Call) :
    (∃ flight treatment, (w.send call).1 = .waiting flight ∧
      flight.phase = .outbound call treatment) ∨
    ∃ answer, (w.send call).1.notes call = [outcome call answer] := by
  cases hprogress : (w.send call).1 with
  | answered result =>
      cases result with
      | ok answer => exact Or.inr ⟨some answer, rfl⟩
      | error error => exact Or.inr ⟨none, rfl⟩
  | waiting flight =>
      rcases flight with ⟨phase, due⟩
      cases phase with
      | outbound c treatment =>
          have hc := send_outbound hprogress
          subst hc
          exact Or.inl ⟨_, treatment, rfl, rfl⟩
      | inbound answer => exact Or.inr ⟨some answer, rfl⟩
  | overflow => exact Or.inr ⟨none, rfl⟩

/-- A call in flight to be carried out is carried out or given up when its wait is
over. -/
theorem outcome_of_proceed (w : World) (call : Call) (treatment : Treatment) (due : Nat) :
    ∃ answer, (w.proceed ⟨.outbound call treatment, due⟩).1.notes call = [outcome call answer] := by
  cases hprogress : (w.proceed ⟨.outbound call treatment, due⟩).1 with
  | answered result =>
      cases result with
      | ok answer => exact ⟨some answer, rfl⟩
      | error error => exact ⟨none, rfl⟩
  | waiting flight =>
      rcases flight with ⟨phase, due'⟩
      cases phase with
      | outbound c treatment' => exact absurd hprogress proceed_ne_outbound
      | inbound answer => exact ⟨some answer, rfl⟩
  | overflow => exact ⟨none, rfl⟩

/-- A call that is in flight begins nothing more. -/
theorem begins_of_mem_notes {call : Call} {progress : Progress} {n : Note}
    (h : n ∈ progress.notes call) : n.begins? = none := by
  cases progress with
  | answered result =>
      cases result with
      | ok answer => rw [List.mem_singleton.1 h]; rfl
      | error error => rw [List.mem_singleton.1 h]; rfl
  | waiting flight =>
      rcases flight with ⟨phase, due⟩
      cases phase with
      | outbound c treatment => exact absurd h List.not_mem_nil
      | inbound answer => rw [List.mem_singleton.1 h]; rfl
  | overflow => rw [List.mem_singleton.1 h]; rfl

/-- A call that proceeds begins no other. -/
theorem begins_of_mem_proceedNotes {w : World} {flight : Flight} {n : Note}
    (h : n ∈ w.proceedNotes flight) : n.begins? = none := by
  rcases flight with ⟨phase, due⟩
  cases phase with
  | outbound call treatment => exact begins_of_mem_notes h
  | inbound answer => exact absurd h List.not_mem_nil

/-! ## What a step leaves behind -/

/-- The call that is left behind where a task has ended so. -/
def Standing.leaves? (st : Standing α) : Option Call :=
  match st.wait with
  | .nothing .. => st.owed
  | _ => none

/-- What a task leaves behind it owed. -/
theorem owed_of_leaves {st : Standing α} {owed : Call} (h : st.leaves? = some owed) :
    st.owed = some owed := by
  unfold Standing.leaves? at h
  split at h
  · exact h
  · exact nomatch h

/-- Where a task stands it is placed, and leaves a call behind if it has ended and owes
one. -/
theorem place_eq (s : State α) (i : Nat) (t : Task α) (st : Standing α) :
    s.place i t st =
      match st.leaves? with
      | none => ⟨st.world, s.tasks.set i (t.placed st), s.detached⟩
      | some owed => ⟨(st.world.send owed).2, s.tasks.set i (t.placed st),
          State.keepFlight s.detached (st.world.send owed).1⟩ := by
  rcases st with ⟨wait, owed, w⟩
  unfold State.place Task.placed Standing.leaves?
  cases wait <;> cases owed <;> simp [Task.hasEnded, Task.standing, State.leave]

/-- A call that is kept in flight was left behind before, or is so now. -/
theorem mem_keepFlight {detached : List Flight} {progress : Progress} {flight : Flight}
    (h : flight ∈ State.keepFlight detached progress) :
    flight ∈ detached ∨ progress = .waiting flight := by
  cases progress with
  | waiting flight' =>
      rcases List.mem_append.1 h with hmem | hmem
      · exact Or.inl hmem
      · rw [List.mem_singleton.1 hmem]
        exact Or.inr rfl
  | _ => exact Or.inl h

/-- The notes tell what the standing leaves behind. -/
def LeavesAs (notes : List Note) (st : Standing α) : Prop :=
  notes.filterMap Note.leaves? = st.leaves?.toList

/-- What was noted before matters to nothing that is left behind, if nothing was left
then. -/
theorem LeavesAs.append {notes older : List Note} {st : Standing α} (h : LeavesAs notes st)
    (holder : older.filterMap Note.leaves? = []) : LeavesAs (notes ++ older) st := by
  unfold LeavesAs at h ⊢
  rw [List.filterMap_append, h, holder, List.append_nil]

/-- A task that quits leaves behind what it owes. -/
theorem leavesAs_quit (owed : Option Call) {older : List Note} (ending : Ending α) (time : Nat)
    (w : World) (holder : older.filterMap Note.leaves? = []) :
    LeavesAs (.quit owed :: older) (⟨.nothing ending time, owed, w⟩ : Standing α) := by
  unfold LeavesAs
  cases owed with
  | none => exact (List.filterMap_cons_none rfl).trans holder
  | some call =>
      exact (List.filterMap_cons_some (f := Note.leaves?) rfl).trans (congrArg (call :: ·) holder)

/-- The progress of a call leaves nothing behind. -/
theorem leaves_notes {call : Call} {progress : Progress} :
    (progress.notes call).filterMap Note.leaves? = [] := by
  cases progress with
  | answered result => cases result <;> rfl
  | waiting flight =>
      rcases flight with ⟨phase, due⟩
      cases phase <;> rfl
  | overflow => rfl

/-- Beginning a call leaves nothing behind. -/
theorem leaves_sendNotes (w : World) (call : Call) :
    (w.sendNotes call).filterMap Note.leaves? = [] := by
  unfold World.sendNotes
  rw [List.filterMap_append, leaves_notes]
  rfl

/-- A call that proceeds leaves nothing behind. -/
theorem leaves_proceedNotes (w : World) (flight : Flight) :
    (w.proceedNotes flight).filterMap Note.leaves? = [] := by
  rcases flight with ⟨phase, due⟩
  cases phase with
  | outbound call treatment => exact leaves_notes
  | inbound answer => rfl

/-- A call that is dropped leaves nothing behind. -/
theorem leaves_dropNotes (flight : Flight) : flight.dropNotes.filterMap Note.leaves? = [] := by
  rcases flight with ⟨phase, due⟩
  cases phase <;> rfl

/-- A program that ends leaves behind what its notes tell. -/
theorem leavesAs_settle (handler : Handler) (p : Program α) (w : World) (owed : Option Call) :
    LeavesAs (settleNotes handler w owed p) (settle handler w owed p) := by
  induction p generalizing w owed with
  | done result => rfl
  | crash => exact leavesAs_quit owed _ _ w rfl
  | call call deadline next ih =>
      have hsent := leaves_sendNotes w call
      unfold settle settleNotes
      rcases w.send call with ⟨progress, w'⟩
      cases progress with
      | answered result => exact (ih result w' owed).append ((List.filterMap_cons_none rfl).trans hsent)
      | waiting flight => exact hsent
      | overflow => exact leavesAs_quit owed _ _ w' hsent
  | sleep span next ih =>
      by_cases hzero : span.timerNanos = 0
      · rw [settle, settleNotes, if_pos hzero, if_pos hzero]
        exact (ih w owed).append rfl
      · rw [settle, settleNotes, if_neg hzero, if_neg hzero]
        rfl
  | now next ih => exact (ih _ w owed).append rfl
  | emit event next ih => exact (ih _ owed).append rfl
  | serve request next ih =>
      unfold settle settleNotes
      dsimp only
      generalize handler.answer (w.served + 1) request = response
      cases handler.delay with
      | some delay => rfl
      | none =>
          cases response with
          | some response => exact (ih response _ owed).append rfl
          | none => exact leavesAs_quit owed _ _ _ rfl
  | fresh next ih => exact (ih _ _ owed).append rfl
  | hold call next ih => exact (ih w (some call)).append rfl
  | unhold next ih => exact (ih w none).append rfl

/-- A task that is resumed leaves behind what it notes. -/
theorem leavesAs_resume {t : Task α} (ht : t.Fits) (w : World) :
    LeavesAs (t.resumeNotes w) (t.resume w) := by
  have howed := ht.owed
  rcases t with ⟨wait, owed, handler, cancelAt⟩
  cases wait with
  | time due program => exact (leavesAs_settle handler program w owed).append rfl
  | answer flight expires deadline call next =>
      have hproceeded := leaves_proceedNotes w flight
      unfold Task.resume Task.resumeNotes
      dsimp only
      rcases w.proceed flight with ⟨progress, w'⟩
      cases progress with
      | answered result =>
          exact ((leavesAs_settle handler (next result) w' owed).append rfl).append hproceeded
      | waiting flight => exact hproceeded
      | overflow => exact leavesAs_quit owed _ _ w' hproceeded
  | response due given next =>
      cases given with
      | some response => exact (leavesAs_settle handler (next response) w owed).append rfl
      | none => exact leavesAs_quit owed _ _ w rfl
  | nothing ending time =>
      have hnone : owed = none := howed rfl
      rw [hnone]
      rfl

/-- So does a task whose wait expires. -/
theorem leavesAs_expire {t : Task α} (ht : t.Fits) (w : World) :
    LeavesAs (t.expireNotes w) (t.expire w) := by
  have howed := ht.owed
  rcases t with ⟨wait, owed, handler, cancelAt⟩
  cases wait with
  | answer flight expires deadline call next =>
      exact (leavesAs_settle handler _ w owed).append
        ((List.filterMap_cons_none rfl).trans (leaves_dropNotes flight))
  | nothing ending time =>
      have hnone : owed = none := howed rfl
      rw [hnone]
      rfl
  | _ => rfl

/-- So does a task that is cancelled. -/
theorem leavesAs_cancel {t : Task α} (ht : t.Fits) (w : World) :
    LeavesAs (t.cancelNotes w) (t.cancel w) := by
  have howed := ht.owed
  rcases t with ⟨wait, owed, handler, cancelAt⟩
  cases wait with
  | time due program => exact leavesAs_quit owed _ _ w rfl
  | answer flight expires deadline call next => exact leavesAs_quit owed _ _ w (leaves_dropNotes flight)
  | response due given next => exact leavesAs_quit owed _ _ w rfl
  | nothing ending time =>
      have hnone : owed = none := howed rfl
      rw [hnone]
      rfl

/-! ## Steps -/

section

variable {s : State α} {i j : Nat} {f : Task α → World → Standing α}
  {notes : Task α → World → List Note} {t : Task α}

/-- A step of a task tells what the task notes, and then the beginning of the call
that it leaves behind, if there is one. -/
theorem step_cases (hj : s.tasks[j]? = some t) (notes : Task α → World → List Note) :
    ((f t s.world).leaves? = none ∧
      s.stepEntries j f notes = entriesOf s.world.mono (some j) (notes t s.world) ∧
      (s.step j f).detached = s.detached) ∨
    ∃ owed, (f t s.world).leaves? = some owed ∧
      s.stepEntries j f notes =
        entriesOf (f t s.world).world.mono none ((f t s.world).world.sendNotes owed) ++
          entriesOf s.world.mono (some j) (notes t s.world) ∧
      (s.step j f).detached = State.keepFlight s.detached ((f t s.world).world.send owed).1 := by
  unfold State.stepEntries State.leaveEntries State.step State.place
  simp only [hj]
  generalize f t s.world = st
  rcases st with ⟨wait, owed, w⟩
  cases wait with
  | nothing ending time =>
      cases owed with
      | none => exact Or.inl ⟨rfl, rfl, rfl⟩
      | some owed => exact Or.inr ⟨owed, rfl, rfl, rfl⟩
  | _ => exact Or.inl ⟨rfl, rfl, rfl⟩

/-- What a task leaves behind it notes last, and it leaves behind nothing else. -/
theorem quit_of_leaves {noted : List Note} {st : Standing α} {owed : Call}
    (hquits : QuitsAs noted st) (hleaves : LeavesAs noted st) (howed : st.leaves? = some owed) :
    ∃ older, noted = .quit (some owed) :: older ∧ older.filterMap Note.leaves? = [] := by
  rcases st with ⟨wait, owes, w⟩
  cases wait with
  | nothing ending time =>
      have hsome : owes = some owed := howed
      rcases hquits ending time owed rfl hsome with ⟨older, rfl⟩
      have htold : (Note.quit (some owed) :: older).filterMap Note.leaves? = [owed] := by
        unfold LeavesAs at hleaves
        rw [hleaves, howed]
        rfl
      rw [List.filterMap_cons_some (f := Note.leaves?) rfl] at htold
      exact ⟨older, rfl, (List.cons.inj htold).2⟩
  | _ => exact nomatch howed

/-- What a step of a task tells of a task's calls is what its notes tell. -/
theorem callsBy_stepEntries (hj : s.tasks[j]? = some t)
    (hquits : QuitsAs (notes t s.world) (f t s.world))
    (hleaves : LeavesAs (notes t s.world) (f t s.world)) (i : Nat) (log : Log) :
    callsBy i (s.stepEntries j f notes ++ log) =
      callsOf (if j = i then notes t s.world else []) ++ callsBy i log := by
  rcases step_cases hj notes with ⟨hnone, hentries, _⟩ | ⟨owed, howed, hentries, _⟩
  · have hnil : (notes t s.world).filterMap Note.leaves? = [] := by
      unfold LeavesAs at hleaves
      rw [hleaves, hnone]
      rfl
    rw [hentries]
    by_cases hij : j = i
    · subst hij
      rw [if_pos rfl, callsBy_entriesOf_self, callsOf_of_left_nil hnil]
    · rw [if_neg hij, callsBy_entriesOf_of_ne hij]
      rfl
  · rcases quit_of_leaves hquits hleaves howed with ⟨older, hnotes, hnil⟩
    rw [hentries, hnotes]
    generalize (f t s.world).world = w
    have hsplit : entriesOf w.mono none (w.sendNotes owed) ++
        entriesOf s.world.mono (some j) (.quit (some owed) :: older) ++ log =
        entriesOf w.mono none ((w.send owed).1.notes owed) ++
          ⟨w.mono, none, .sent owed⟩ :: ⟨s.world.mono, some j, .quit (some owed)⟩ ::
            (entriesOf s.world.mono (some j) older ++ log) := by
      simp [World.sendNotes, entriesOf]
    rw [hsplit, callsBy_entriesOf_of_none fun n hn => begins_of_mem_notes hn]
    by_cases hij : j = i
    · subst hij
      simp [callsBy, LeftLast, callsBy_entriesOf_self, callsOf_of_left_nil hnil, Note.call?,
        Note.begins?, Note.leaves?]
    · simp [callsBy, LeftLast, hij, callsBy_entriesOf_of_ne hij, callsOf]

end

/-! ## Runs -/

section

variable {h : Chronicle α} {s : State α}

/-- Every task of a chronicle fits what it waits for. -/
theorem Follows.fits (hs : Follows s h) {j : Nat} {t : Task α} (hj : h.state.tasks[j]? = some t) :
    t.Fits := by
  have hlt : j < s.tasks.length := by
    rw [← hs.length]
    exact (List.getElem?_eq_some_iff.1 hj).1
  exact (hs.path j s.tasks[j] t (List.getElem?_eq_getElem hlt) hj).2.1

/-- What a step of a task adds to its calls, its notes say. -/
theorem callsBy_step {j : Nat} {f : Task α → World → Standing α}
    {notes : Task α → World → List Note} (hs : Follows s h)
    (hown : ∀ i, callsBy i h.log = callsOf (own i h.log))
    (hf : ∀ t : Task α, t.Fits → ∀ w, QuitsAs (notes t w) (f t w) ∧ LeavesAs (notes t w) (f t w))
    (i : Nat) :
    callsBy i (h.state.stepEntries j f notes ++ h.log) =
      callsOf (own i (h.state.stepEntries j f notes ++ h.log)) := by
  rw [own_append, callsOf_append, ← hown i]
  cases hj : h.state.tasks[j]? with
  | none =>
      unfold State.stepEntries
      rw [hj]
      rfl
  | some t =>
      rcases hf t (hs.fits hj) h.state.world with ⟨hquits, hleaves⟩
      rw [callsBy_stepEntries hj hquits hleaves]
      by_cases hij : j = i
      · subst hij
        rw [if_pos rfl, own_stepEntries_self hj]
      · rw [if_neg hij, own_stepEntries_of_ne (Ne.symm hij)]

/-- The calls that a log tells of a task are those that its own notes tell. -/
theorem chronicle_callsBy {s : State α} (hs : ∀ t ∈ s.tasks, t.Fits) (happenings : List Happening)
    (i : Nat) :
    callsBy i (Chronicle.of s happenings).log = callsOf (own i (Chronicle.of s happenings).log) := by
  have hboth : Follows s (Chronicle.of s happenings) ∧
      ∀ i, callsBy i (Chronicle.of s happenings).log =
        callsOf (own i (Chronicle.of s happenings).log) := by
    refine chronicle_induction
      (P := fun h => Follows s h ∧ ∀ i, callsBy i h.log = callsOf (own i h.log)) s
      ⟨chronicle_path hs [], fun _ => rfl⟩ ?_
    rintro h e _ ⟨hfollows, hown⟩
    refine ⟨follows_after hfollows e, ?_⟩
    cases e with
    | move m =>
        cases m with
        | resume j =>
            exact callsBy_step hfollows hown fun t ht w => ⟨quitsAs_resume ht w, leavesAs_resume ht w⟩
        | expire j =>
            exact callsBy_step hfollows hown fun t ht w => ⟨quitsAs_expire ht w, leavesAs_expire ht w⟩
        | cancel j =>
            exact callsBy_step hfollows hown fun t ht w => ⟨quitsAs_cancel ht w, leavesAs_cancel ht w⟩
        | deliver j =>
            intro i
            simp only [Chronicle.after, State.entries, State.deliverEntries]
            cases h.state.detached[j]? with
            | none => exact hown i
            | some flight =>
                rw [own_append, own_entriesOf_of_ne (by simp),
                  callsBy_entriesOf_of_none fun n hn => begins_of_mem_proceedNotes hn]
                exact hown i
    | _ => exact hown
  exact hboth.2 i

/-- The call is in flight without a task, to be carried out. -/
def Pending (detached : List Flight) (call : Call) : Prop :=
  ∃ flight ∈ detached, ∃ treatment, flight.phase = .outbound call treatment

/-- A call that was begun without a task is in flight, or was carried out or given
up. -/
def Carried (h : Chronicle α) : Prop :=
  ∀ t call past, Tells h.log ⟨t, none, .sent call⟩ past → Pending h.state.detached call ∨
    ∃ t' answer behind, Tells h.log ⟨t', none, outcome call answer⟩ behind ∧
      Tells behind ⟨t, none, .sent call⟩ past

/-- What is told stays told, and what is in flight stays in flight or comes to its
end. -/
theorem Carried.grow {newer : Log} {state : State α} (hc : Carried h)
    (hnew : ∀ t call past, Tells (newer ++ h.log) ⟨t, none, .sent call⟩ past →
      ¬ Tells h.log ⟨t, none, .sent call⟩ past → Pending state.detached call ∨
        ∃ t' answer behind, Tells (newer ++ h.log) ⟨t', none, outcome call answer⟩ behind ∧
          Tells behind ⟨t, none, .sent call⟩ past)
    (hflight : ∀ call, Pending h.state.detached call → Pending state.detached call ∨
      ∃ t' answer behind, Tells (newer ++ h.log) ⟨t', none, outcome call answer⟩ behind ∧
        h.log <:+ behind) : Carried ⟨state, newer ++ h.log⟩ := by
  intro t call past htold
  by_cases hold : Tells h.log ⟨t, none, .sent call⟩ past
  · rcases hc t call past hold with hpending | ⟨t', answer, behind, hended, hsent⟩
    · rcases hflight call hpending with hpending | ⟨t', answer, behind, hended, hbehind⟩
      · exact Or.inl hpending
      · exact Or.inr ⟨t', answer, behind, hended, hold.of_suffix hbehind⟩
    · exact Or.inr ⟨t', answer, behind, hended.of_suffix (List.suffix_append _ _), hsent⟩
  · exact hnew t call past htold hold

/-- A call that is pending stays so when another one is kept. -/
theorem Pending.keepFlight {detached : List Flight} {call : Call} (hp : Pending detached call)
    (progress : Progress) : Pending (State.keepFlight detached progress) call := by
  rcases hp with ⟨flight, hmem, hphase⟩
  refine ⟨flight, ?_, hphase⟩
  cases progress with
  | waiting flight' => exact List.mem_append_left _ hmem
  | _ => exact hmem

/-- A call that is begun without a task is in flight from then on, or is carried out
or given up at once. -/
theorem pending_or_outcome_of_send {w : World} {call : Call} {t : Nat} {past rest : Log}
    (htold : Tells (entriesOf w.mono none (w.sendNotes call) ++ rest) ⟨t, none, .sent call⟩ past)
    (detached : List Flight) :
    Pending (State.keepFlight detached (w.send call).1) call ∨
      ∃ t' answer behind, Tells (entriesOf w.mono none (w.sendNotes call) ++ rest)
          ⟨t', none, outcome call answer⟩ behind ∧
        Tells behind ⟨t, none, .sent call⟩ past := by
  rcases flight_or_outcome_of_send w call with
    ⟨flight, treatment, hwaiting, hphase⟩ | ⟨answer, hnotes⟩
  · refine Or.inl ⟨flight, ?_, treatment, hphase⟩
    simp [hwaiting, State.keepFlight]
  · rw [World.sendNotes, hnotes] at htold ⊢
    refine Or.inr ⟨w.mono, answer, ⟨w.mono, none, .sent call⟩ :: rest, Tells.last _ _, ?_⟩
    exact suffix_of_head_ne htold (by cases answer <;> nofun)

/-- A step of a task carries on with what was left behind. -/
theorem carried_step {j : Nat} {f : Task α → World → Standing α}
    {notes : Task α → World → List Note} (hc : Carried h) :
    Carried ⟨h.state.step j f, h.state.stepEntries j f notes ++ h.log⟩ := by
  cases hj : h.state.tasks[j]? with
  | none =>
      unfold State.step State.stepEntries
      rw [hj]
      exact hc
  | some t =>
      rcases step_cases hj notes with ⟨_, hentries, hdetached⟩ | ⟨owed, _, hentries, hdetached⟩
      · rw [hentries]
        refine hc.grow ?_ fun call hpending => Or.inl (hdetached ▸ hpending)
        intro t' call past htold hnew
        rcases tells_append htold with hold | ⟨hmem, _⟩
        · exact absurd hold hnew
        · exact nomatch (mem_entriesOf hmem).1
      · rw [hentries]
        refine hc.grow ?_ fun call hpending => Or.inl (hdetached ▸ hpending.keepFlight _)
        intro t' call past htold hnew
        generalize (f t h.state.world).world = w at htold hdetached ⊢
        rw [List.append_assoc] at htold ⊢
        generalize hrest :
          entriesOf h.state.world.mono (some j) (notes t h.state.world) ++ h.log = rest
        rw [hrest] at htold
        have hcall : call = owed := by
          rcases tells_append htold with hown | ⟨hmem, _⟩
          · rw [← hrest] at hown
            rcases tells_append hown with hold | ⟨hmem, _⟩
            · exact absurd hold hnew
            · exact nomatch (mem_entriesOf hmem).1
          · rcases List.mem_append.1 (mem_entriesOf hmem).2 with hmem | hmem
            · exact nomatch begins_of_mem_notes hmem
            · exact (Note.sent.inj (List.mem_singleton.1 hmem))
        subst hcall
        rw [hdetached]
        exact pending_or_outcome_of_send htold _

/-- So does a call that proceeds by itself. -/
theorem carried_deliver (hc : Carried h) (j : Nat) :
    Carried ⟨h.state.deliver j, h.state.deliverEntries j ++ h.log⟩ := by
  unfold State.deliver State.deliverEntries
  cases hj : h.state.detached[j]? with
  | none => exact hc
  | some flight =>
      refine hc.grow ?_ ?_
      · intro t call past htold hnew
        rcases tells_append htold with hold | ⟨hmem, _⟩
        · exact absurd hold hnew
        · exact nomatch begins_of_mem_proceedNotes (mem_entriesOf hmem).2
      · rintro call ⟨flight', hmem, treatment, hphase⟩
        rcases List.getElem?_of_mem hmem with ⟨k, hk⟩
        by_cases hkj : k = j
        · subst hkj
          rw [hj, Option.some.injEq] at hk
          subst hk
          rcases flight with ⟨phase, due⟩
          have hout : phase = .outbound call treatment := hphase
          subst hout
          rcases outcome_of_proceed h.state.world call treatment due with ⟨answer, hnotes⟩
          refine Or.inr ⟨h.state.world.mono, answer, h.log, ?_, List.suffix_rfl⟩
          simp only [World.proceedNotes, hnotes]
          exact Tells.last _ _
        · have hstays : Pending (h.state.detached.eraseIdx j) call :=
            ⟨flight', List.mem_eraseIdx_iff_getElem?.2 ⟨k, hkj, hk⟩, treatment, hphase⟩
          exact Or.inl (hstays.keepFlight _)

/-- In every chronicle a call that was left behind is in flight, or was carried out
or given up. -/
theorem chronicle_carried (s : State α) (happenings : List Happening) :
    Carried (Chronicle.of s happenings) := by
  refine chronicle_induction s ?_ ?_
  · intro t call past htold
    exact absurd htold.mem List.not_mem_nil
  · intro h e _ hc
    cases e with
    | pass moment => exact hc
    | purge => exact hc
    | setWall time => exact hc
    | setManual time => exact hc
    | move m =>
        cases m with
        | resume i => exact carried_step hc
        | expire i => exact carried_step hc
        | cancel i => exact carried_step hc
        | deliver j => exact carried_deliver hc j

end

/-! ## What follows a call -/

namespace Path

variable {handler : Handler} {s s' : Stage α} {notes older : List Note} {call : Call}

/-- A path that goes on after a note goes on from where the note leads. -/
theorem after {n : Note} (h : Path handler s notes s') (hn : n :: older <:+ notes) :
    ∃ s₀ s₁, Stage.Step handler s₀ n s₁ ∧
      ((notes = n :: older ∧ s' = s₁) ∨
        ∃ m s₂, Stage.Step handler s₁ m s₂ ∧ m :: n :: older <:+ notes) := by
  rcases hn with ⟨newer, rfl⟩
  rcases h.split with ⟨s₁, hbefore, hnewer⟩
  cases hbefore with
  | step _ hstep =>
      refine ⟨_, s₁, hstep, ?_⟩
      rcases List.eq_nil_or_concat newer with rfl | ⟨later, m, hlater⟩
      · cases hnewer
        exact Or.inl ⟨rfl, rfl⟩
      · rw [List.concat_eq_append] at hlater
        subst hlater
        rcases hnewer.split with ⟨s₂, hfirst, _⟩
        cases hfirst with
        | step hnone hm =>
            cases hnone
            exact Or.inr ⟨m, s₂, hm, later, by simp⟩

/-- A call that was begun is still in flight, or was carried out or given up. -/
theorem after_sent (h : Path handler s notes s') (hn : .sent call :: older <:+ notes) :
    (∃ next, s'.point = .calling call next) ∨
      ∃ answer, outcome call answer :: .sent call :: older <:+ notes := by
  rcases h.after hn with ⟨s₀, s₁, hstep, ⟨_, rfl⟩ | ⟨m, s₂, hm, hnext⟩⟩
  · cases hstep
    exact Or.inl ⟨_, rfl⟩
  · cases hstep
    cases hm with
    | done => exact Or.inr ⟨some _, hnext⟩
    | lost => exact Or.inr ⟨none, hnext⟩

/-- The end of a call is the last that is noted, or it is told, or the task breaks
off. -/
theorem after_outcome {answer : Option Answer} (h : Path handler s notes s')
    (hn : outcome call answer :: older <:+ notes) :
    (∃ next, s'.point = .called call answer next) ∨
      (∃ result, Reports answer result ∧ .told call result :: outcome call answer :: older <:+ notes) ∨
      ∃ owed, .quit owed :: outcome call answer :: older <:+ notes := by
  rcases h.after hn with ⟨s₀, s₁, hstep, hrest⟩
  have hcalled : ∃ next owed, s₁ = ⟨.called call answer next, owed⟩ := by
    cases answer with
    | none =>
        cases hstep
        exact ⟨_, _, rfl⟩
    | some a =>
        cases hstep
        exact ⟨_, _, rfl⟩
  rcases hcalled with ⟨next, owed, rfl⟩
  rcases hrest with ⟨_, rfl⟩ | ⟨m, s₂, hm, hnext⟩
  · exact Or.inl ⟨next, rfl⟩
  · cases hm with
    | told hreports => exact Or.inr (Or.inl ⟨_, hreports, hnext⟩)
    | calledOff => exact Or.inr (Or.inr ⟨_, hnext⟩)

/-- Nothing is noted after a task has broken off. -/
theorem after_quit {owed : Option Call} (h : Path handler s notes s')
    (hn : .quit owed :: older <:+ notes) : notes = .quit owed :: older := by
  rcases h.after hn with ⟨s₀, s₁, hstep, ⟨heq, _⟩ | ⟨m, s₂, hm, _⟩⟩
  · exact heq
  · cases hstep <;> cases hm

/-- A task that is over has noted that it broke off. -/
theorem quit_of_over (h : Path handler s notes s') (hs : s.point ≠ .over)
    (hover : s'.point = .over) : ∃ owed older, notes = .quit owed :: older := by
  cases h with
  | refl => exact absurd hover hs
  | step hpath hstep => cases hstep <;> first | exact ⟨_, _, rfl⟩ | exact nomatch hover

end Path

/-- A task that has ended has its result, or is over. -/
theorem point_of_hasEnded {t : Task α} (h : t.hasEnded = true) :
    (∃ a, t.stage.point = .ended a) ∨ t.stage.point = .over := by
  rcases t with ⟨wait, owed, handler, cancelAt⟩
  cases wait with
  | nothing ending time =>
      cases ending with
      | result a => exact Or.inl ⟨a, rfl⟩
      | _ => exact Or.inr rfl
  | _ => exact nomatch h

end Turnstile.Run
