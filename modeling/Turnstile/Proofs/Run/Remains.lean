import Turnstile.Proofs.Run.Path

/-!
# What tasks leave behind

A call that belongs to no task was left behind by one that broke off or was
cancelled.  So whatever the log tells of such a call, a task quit before it and
owed that very call.

Main results:

- Theorem `chronicle_remains`: a call without a task was left behind by one.
-/

namespace Turnstile.Run

open Store (Answer Call)

variable {α : Type}

/-- Some task quit and left the call behind. -/
def LeftBehind (log : Log) (call : Call) : Prop :=
  ∃ t i past, Tells log ⟨t, some i, .quit (some call)⟩ past

/-- A note of the course of a call. -/
def Note.IsOf (call : Call) : Note → Prop
  | .sent c => c = call
  | .done c _ => c = call
  | .lost c => c = call
  | _ => False

/-- Calls in flight without a task, and what the log tells of calls without a
task, were left behind. -/
structure Remains (h : Chronicle α) : Prop where
  flights : ∀ flight ∈ h.state.detached, ∀ call treatment,
    flight.phase = .outbound call treatment → LeftBehind h.log call
  entries : ∀ e past, Tells h.log e past → e.task = none →
    ∃ call, LeftBehind past call ∧ e.note.IsOf call

/-- What was left behind before is left behind. -/
theorem LeftBehind.of_suffix {past log : Log} {call : Call} (h : LeftBehind past call)
    (hs : past <:+ log) : LeftBehind log call := by
  rcases h with ⟨t, i, older, htold⟩
  exact ⟨t, i, older, htold.of_suffix hs⟩

/-! ## Notes of calls -/

/-- The notes of how far a call has come are about the call. -/
theorem isOf_of_mem_notes {call : Call} {progress : Progress} {n : Note}
    (h : n ∈ progress.notes call) : n.IsOf call := by
  cases progress with
  | answered result =>
      cases result with
      | ok answer =>
          rw [List.mem_singleton.1 h]
          rfl
      | error error =>
          rw [List.mem_singleton.1 h]
          rfl
  | waiting flight =>
      rcases flight with ⟨phase, due⟩
      cases phase with
      | outbound c treatment => exact absurd h List.not_mem_nil
      | inbound answer =>
          rw [List.mem_singleton.1 h]
          rfl
  | overflow =>
      rw [List.mem_singleton.1 h]
      rfl

/-- So are those of a call that is begun. -/
theorem isOf_of_mem_sendNotes {w : World} {call : Call} {n : Note} (h : n ∈ w.sendNotes call) :
    n.IsOf call := by
  rcases List.mem_append.1 h with h | h
  · exact isOf_of_mem_notes h
  · rw [List.mem_singleton.1 h]
    rfl

/-- What is told by a longer log was told before, or is new. -/
theorem tells_append {newer log past : Log} {e : Entry} (h : Tells (newer ++ log) e past) :
    Tells log e past ∨ (e ∈ newer ∧ log <:+ past) := by
  induction newer with
  | nil => exact Or.inl h
  | cons e' newer ih =>
      rcases List.suffix_cons_iff.1 h with heq | h
      · rw [List.cons.injEq] at heq
        rw [heq.1, heq.2]
        exact Or.inr ⟨List.mem_cons_self, List.suffix_append _ _⟩
      · rcases ih h with htold | ⟨hmem, hs⟩
        · exact Or.inl htold
        · exact Or.inr ⟨List.mem_cons_of_mem _ hmem, hs⟩

/-- The entries of a task have its notes. -/
theorem mem_entriesOf {t : Nat} {task : Option Nat} {notes : List Note} {e : Entry}
    (h : e ∈ entriesOf t task notes) : e.task = task ∧ e.note ∈ notes := by
  rcases List.mem_map.1 h with ⟨n, hn, rfl⟩
  exact ⟨rfl, hn⟩

/-! ## Quitting -/

/-- A standing that ends a task and owes a call comes from quitting. -/
def QuitsAs (notes : List Note) (st : Standing α) : Prop :=
  ∀ ending time owed, st.wait = .nothing ending time → st.owed = some owed →
    ∃ older, notes = .quit (some owed) :: older

/-- What was noted before matters to no end. -/
theorem QuitsAs.append {notes : List Note} {st : Standing α} (h : QuitsAs notes st)
    (older : List Note) : QuitsAs (notes ++ older) st := by
  intro ending time owed hwait howed
  rcases h ending time owed hwait howed with ⟨older', rfl⟩
  exact ⟨older' ++ older, rfl⟩

/-- A task that quits notes what it owes. -/
theorem quitsAs_quit {owed : Option Call} {older : List Note} {w : World} {ending : Ending α}
    {time : Nat} : QuitsAs (.quit owed :: older) (⟨.nothing ending time, owed, w⟩ : Standing α) := by
  intro ending' time' owed' _ howed
  have heq : owed = some owed' := howed
  rw [heq]
  exact ⟨older, rfl⟩

/-- A task that has ended owing nothing quits no more. -/
theorem quitsAs_nothing {notes : List Note} {ending : Ending α} {time : Nat} {owed : Option Call}
    {w : World} (howed : owed = none) : QuitsAs notes (⟨.nothing ending time, owed, w⟩ : Standing α) := by
  subst howed
  intro ending' time' owed' _ howed'
  exact nomatch howed'

/-- A program quits as it notes. -/
theorem quitsAs_settle (handler : Handler) (p : Program α) (w : World) (owed : Option Call) :
    QuitsAs (settleNotes handler w owed p) (settle handler w owed p) := by
  induction p generalizing w owed with
  | done result =>
      intro ending time owed' _ howed
      cases howed
  | crash => exact quitsAs_quit
  | call call deadline next ih =>
      unfold settle settleNotes
      rcases w.send call with ⟨progress, w'⟩
      cases progress with
      | answered result => exact (ih result w' owed).append _
      | waiting flight =>
          intro ending time owed' hwait _
          cases hwait
      | overflow => exact quitsAs_quit
  | sleep span next ih =>
      by_cases hzero : span.timerNanos = 0
      · rw [settle, settleNotes, if_pos hzero, if_pos hzero]
        exact (ih w owed).append _
      · rw [settle, settleNotes, if_neg hzero, if_neg hzero]
        intro ending time owed' hwait _
        cases hwait
  | now next ih => exact (ih _ w owed).append _
  | emit event next ih => exact (ih _ owed).append _
  | serve request next ih =>
      unfold settle settleNotes
      dsimp only
      generalize handler.answer (w.served + 1) request = response
      cases handler.delay with
      | some delay =>
          intro ending time owed' hwait _
          cases hwait
      | none =>
          cases response with
          | some response => exact (ih response _ owed).append _
          | none => exact quitsAs_quit
  | fresh next ih => exact (ih _ _ owed).append _
  | hold call next ih => exact (ih w (some call)).append _
  | unhold next ih => exact (ih w none).append _

/-- So does a task that is resumed. -/
theorem quitsAs_resume {t : Task α} (ht : t.Fits) (w : World) :
    QuitsAs (t.resumeNotes w) (t.resume w) := by
  have howed := ht.owed
  rcases t with ⟨wait, owed, handler, cancelAt⟩
  cases wait with
  | time due program => exact (quitsAs_settle handler program w owed).append _
  | answer flight expires deadline call next =>
      unfold Task.resume Task.resumeNotes
      dsimp only
      rcases w.proceed flight with ⟨progress, w'⟩
      cases progress with
      | answered result =>
          exact ((quitsAs_settle handler (next result) w' owed).append _).append _
      | waiting flight =>
          intro ending time owed' hwait _
          exact nomatch hwait
      | overflow => exact quitsAs_quit
  | response due given next =>
      cases given with
      | some response => exact (quitsAs_settle handler (next response) w owed).append _
      | none => exact quitsAs_quit
  | nothing ending time => exact quitsAs_nothing (howed rfl)

/-- So does a task whose wait expires. -/
theorem quitsAs_expire {t : Task α} (ht : t.Fits) (w : World) :
    QuitsAs (t.expireNotes w) (t.expire w) := by
  have howed := ht.owed
  rcases t with ⟨wait, owed, handler, cancelAt⟩
  cases wait with
  | answer flight expires deadline call next =>
      exact (quitsAs_settle handler _ w owed).append _
  | nothing ending time => exact quitsAs_nothing (howed rfl)
  | _ =>
      intro ending time owed' hwait _
      exact nomatch hwait

/-- So does a task that is cancelled. -/
theorem quitsAs_cancel {t : Task α} (ht : t.Fits) (w : World) :
    QuitsAs (t.cancelNotes w) (t.cancel w) := by
  have howed := ht.owed
  rcases t with ⟨wait, owed, handler, cancelAt⟩
  cases wait with
  | time due program => exact quitsAs_quit
  | answer flight expires deadline call next => exact quitsAs_quit
  | response due given next => exact quitsAs_quit
  | nothing ending time => exact quitsAs_nothing (howed rfl)

/-! ## Runs -/

section

variable {h : Chronicle α}

/-- A call that is begun without a task leaves a flight of its own. -/
theorem flights_send {w : World} {owed call : Call} {treatment : Treatment} {detached : List Flight}
    {flight : Flight} (hmem : flight ∈ State.keepFlight detached (w.send owed).1)
    (hphase : flight.phase = .outbound call treatment) : flight ∈ detached ∨ call = owed := by
  cases hprogress : (w.send owed).1 with
  | answered result =>
      rw [hprogress] at hmem
      exact Or.inl hmem
  | overflow =>
      rw [hprogress] at hmem
      exact Or.inl hmem
  | waiting flight' =>
      rw [hprogress] at hmem
      rcases List.mem_append.1 hmem with hmem | hmem
      · exact Or.inl hmem
      · rw [List.mem_singleton.1 hmem] at hphase
        rcases flight' with ⟨phase, due⟩
        simp only at hphase
        rw [hphase] at hprogress
        exact Or.inr (send_outbound hprogress)

/-- What a task notes tells nothing of calls without a task. -/
theorem Remains.note (hr : Remains h) {s' : State α} (hdetached : s'.detached = h.state.detached)
    (t i : Nat) (notes : List Note) : Remains ⟨s', entriesOf t (some i) notes ++ h.log⟩ where
  flights := by
    intro flight hmem call treatment hphase
    rw [hdetached] at hmem
    exact (hr.flights flight hmem call treatment hphase).of_suffix (List.suffix_append _ _)
  entries := by
    intro e past htold hnone
    rcases tells_append htold with htold | ⟨hmem, _⟩
    · exact hr.entries e past htold hnone
    · rw [(mem_entriesOf hmem).1] at hnone
      exact nomatch hnone

/-- A call that was left behind may go on without a task. -/
theorem Remains.leave (hr : Remains h) {owed : Call} (hleft : LeftBehind h.log owed) :
    Remains ⟨h.state.leave owed,
      entriesOf h.state.world.mono none (h.state.world.sendNotes owed) ++ h.log⟩ where
  flights := by
    intro flight hmem call treatment hphase
    rcases flights_send hmem hphase with hmem | rfl
    · exact (hr.flights flight hmem call treatment hphase).of_suffix (List.suffix_append _ _)
    · exact hleft.of_suffix (List.suffix_append _ _)
  entries := by
    intro e past htold hnone
    rcases tells_append htold with htold | ⟨hmem, hsuffix⟩
    · exact hr.entries e past htold hnone
    · exact ⟨owed, hleft.of_suffix hsuffix, isOf_of_mem_sendNotes (mem_entriesOf hmem).2⟩

/-- What remains does so with a step of a task, and what that leaves behind joins it. -/
theorem remains_step {s : State α} {i : Nat} {f : Task α → World → Standing α}
    {notes : Task α → World → List Note} (hs : Follows s h) (hr : Remains h)
    (hf : ∀ t : Task α, t.Fits → ∀ w, QuitsAs (notes t w) (f t w)) :
    Remains ⟨h.state.step i f, h.state.stepEntries i f notes ++ h.log⟩ := by
  unfold State.step State.stepEntries
  cases hi : h.state.tasks[i]? with
  | none => exact hr
  | some t =>
      have hfits : t.Fits := by
        have hlt : i < s.tasks.length := by
          rw [← hs.length]
          exact (List.getElem?_eq_some_iff.1 hi).1
        exact (hs.path i s.tasks[i] t (List.getElem?_eq_getElem hlt) hi).2.1
      have hquits := hf t hfits h.state.world
      have hnoted : ∀ s' : State α, s'.detached = h.state.detached → Remains
          ⟨s', entriesOf h.state.world.mono (some i) (notes t h.state.world) ++ h.log⟩ :=
        fun s' hdetached => hr.note hdetached _ _ _
      simp only [State.place, State.leaveEntries, List.append_assoc]
      generalize f t h.state.world = st at hquits ⊢
      rcases st with ⟨wait, owed, w⟩
      cases wait with
      | nothing ending time =>
          cases owed with
          | none => exact hnoted _ rfl
          | some owed =>
              -- The task that has ended quit, and the call that it owed goes on without it.
              rcases hquits ending time owed rfl rfl with ⟨older, hnotes⟩
              refine Remains.leave (hnoted ⟨w, _, h.state.detached⟩ rfl) ?_
              rw [hnotes]
              exact ⟨_, i, _, Tells.last _ _⟩
      | _ => exact hnoted _ rfl

/-- It remains when a call proceeds by itself. -/
theorem remains_deliver (hr : Remains h) (j : Nat) :
    Remains ⟨h.state.deliver j, h.state.deliverEntries j ++ h.log⟩ := by
  unfold State.deliver State.deliverEntries
  cases hj : h.state.detached[j]? with
  | none => exact hr
  | some flight =>
      have hmem : flight ∈ h.state.detached := List.mem_of_getElem? hj
      refine ⟨?_, ?_⟩
      · intro flight' hmem' call treatment hphase
        have hold : flight' ∈ h.state.detached := by
          dsimp only at hmem'
          cases hprogress : (h.state.world.proceed flight).1 with
          | answered result =>
              rw [hprogress] at hmem'
              exact List.mem_of_mem_eraseIdx hmem'
          | overflow =>
              rw [hprogress] at hmem'
              exact List.mem_of_mem_eraseIdx hmem'
          | waiting flight'' =>
              rw [hprogress] at hmem'
              rcases List.mem_append.1 hmem' with hmem' | hmem'
              · exact List.mem_of_mem_eraseIdx hmem'
              · rw [List.mem_singleton.1 hmem'] at hphase
                rcases flight'' with ⟨phase, due⟩
                simp only at hphase
                rw [hphase] at hprogress
                exact absurd hprogress proceed_ne_outbound
        exact (hr.flights flight' hold call treatment hphase).of_suffix (List.suffix_append _ _)
      · intro e past htold hnone
        rcases tells_append htold with htold | ⟨hnew, hsuffix⟩
        · exact hr.entries e past htold hnone
        · have hnote := (mem_entriesOf hnew).2
          rcases hflight : flight with ⟨phase, due⟩
          rw [hflight] at hnote
          cases phase with
          | outbound call treatment =>
              have hleft := hr.flights flight hmem call treatment (by rw [hflight])
              exact ⟨call, hleft.of_suffix hsuffix, isOf_of_mem_notes hnote⟩
          | inbound answer => exact absurd hnote List.not_mem_nil

end

/-- A call without a task was left behind by one. -/
theorem chronicle_remains {s : State α} (hs : ∀ t ∈ s.tasks, t.Fits) (hdetached : s.detached = [])
    (happenings : List Happening) : Remains (Chronicle.of s happenings) := by
  have hboth : Follows s (Chronicle.of s happenings) ∧ Remains (Chronicle.of s happenings) := by
    refine chronicle_induction (P := fun h => Follows s h ∧ Remains h) s ?_ ?_
    · refine ⟨chronicle_path hs [], ?_, ?_⟩
      · intro flight hmem
        rw [hdetached] at hmem
        exact absurd hmem List.not_mem_nil
      · intro e past htold
        exact absurd htold.mem List.not_mem_nil
    · intro h e _ hboth
      rcases hboth with ⟨hfollows, hremains⟩
      refine ⟨follows_after hfollows e, ?_⟩
      cases e with
      | pass moment => exact ⟨hremains.flights, hremains.entries⟩
      | purge => exact ⟨hremains.flights, hremains.entries⟩
      | setWall time => exact ⟨hremains.flights, hremains.entries⟩
      | setManual time => exact ⟨hremains.flights, hremains.entries⟩
      | move m =>
          cases m with
          | resume i => exact remains_step hfollows hremains fun t ht w => quitsAs_resume ht w
          | expire i => exact remains_step hfollows hremains fun t ht w => quitsAs_expire ht w
          | cancel i => exact remains_step hfollows hremains fun t ht w => quitsAs_cancel ht w
          | deliver j => exact remains_deliver hremains j
  exact hboth.2

end Turnstile.Run
