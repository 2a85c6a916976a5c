import Turnstile.Proofs.Run.Log

/-!
# Chronicles

A chronicle is a run together with its log.  The functions of this module say
what a step of a run notes; they follow the steps themselves and change
nothing about them, so that a chronicle goes exactly where the run goes.

What happens in a run is given as a list of any length and order: time passes,
a move is made whether it is due or not, the store is purged, a clock is set.
The schedule of a run is one such list.

Main results:

- Theorem `exists_chronicle_run`: the schedule of a run is a list of happenings.
- Theorem `chronicle_append`: a chronicle goes on where it stands.
-/

namespace Turnstile.Run

open Store (Answer Call)

variable {α : Type}

/-! ## Notes of a call -/

/-- What a call that was carried out or given up notes by its progress. -/
def Progress.notes (call : Call) : Progress → List Note
  | .answered (.ok answer) => [.done call answer]
  | .answered (.error _) => [.lost call]
  | .waiting ⟨.outbound _ _, _⟩ => []
  | .waiting ⟨.inbound answer, _⟩ => [.done call answer]
  | .overflow => [.lost call]

/-- What the beginning of a call notes. -/
def World.sendNotes (w : World) (call : Call) : List Note :=
  (w.send call).1.notes call ++ [.sent call]

/-- What a call in flight notes when its wait is over. -/
def World.proceedNotes (w : World) (flight : Flight) : List Note :=
  match flight.phase with
  | .outbound call _ => (w.proceed flight).1.notes call
  | .inbound _ => []

/-- What a call in flight notes when it is given up. -/
def Flight.dropNotes (flight : Flight) : List Note :=
  match flight.phase with
  | .outbound call _ => [.lost call]
  | .inbound _ => []

/-! ## Notes of a task -/

/-- What a program notes until it has to wait. -/
def settleNotes (handler : Handler) (w : World) (owed : Option Call) : Program α → List Note
  | .done _ => [.ended]
  | .crash => [.quit owed]
  | .call call _ next =>
      match w.send call with
      | (.answered result, w') =>
          settleNotes handler w' owed (next result) ++ .told call result :: w.sendNotes call
      | (.waiting _, _) => w.sendNotes call
      | (.overflow, _) => .quit owed :: w.sendNotes call
  | .sleep span next =>
      if span.timerNanos = 0 then settleNotes handler w owed next ++ [.resumed, .paused span]
      else [.paused span]
  | .now next => settleNotes handler w owed (next w.clocks.now) ++ [.read w.clocks.now]
  | .emit event next =>
      settleNotes handler { w with events := event :: w.events } owed next ++ [.emitted event]
  | .serve request next =>
      let w := { w with served := w.served + 1 }
      match handler.delay, handler.answer w.served request with
      | some _, _ => [.began request]
      | none, some response =>
          settleNotes handler w owed (next response) ++
            [.finished (some response), .began request]
      | none, none => [.quit owed, .finished none, .began request]
  | .fresh next =>
      let w := { w with drawn := w.drawn + 1 }
      settleNotes handler w owed (next w.drawn) ++ [.drew w.drawn]
  | .hold call next => settleNotes handler w (some call) next ++ [.held call]
  | .unhold next => settleNotes handler w none next ++ [.unheld]

/-- What a task notes after its wait for the answer of a call has come to the
given progress. -/
def afterProgressNotes (handler : Handler) (owed : Option Call) (call : Call)
    (next : Except Store.Error Answer → Program α) : Progress × World → List Note
  | (.answered result, w) => settleNotes handler w owed (next result) ++ [.told call result]
  | (.waiting _, _) => []
  | (.overflow, _) => [.quit owed]

namespace Task

/-- What a task notes when its wait is over. -/
def resumeNotes (t : Task α) (w : World) : List Note :=
  match t.wait with
  | .time _ program => settleNotes t.handler w t.owed program ++ [.resumed]
  | .answer flight _ _ call next =>
      afterProgressNotes t.handler t.owed call next (w.proceed flight) ++ w.proceedNotes flight
  | .response _ (some response) next =>
      settleNotes t.handler w t.owed (next response) ++ [.finished (some response)]
  | .response _ none _ => [.quit t.owed, .finished none]
  | .nothing .. => []

/-- What a task notes when it gives up the call that it waits for. -/
def expireNotes (t : Task α) (w : World) : List Note :=
  match t.wait with
  | .answer flight _ deadline call next =>
      let error := Store.Error.timeout call.operation deadline
      settleNotes t.handler w t.owed (next (.error error)) ++
        .told call (.error error) :: flight.dropNotes
  | _ => []

/-- What a task notes when it is cancelled. -/
def cancelNotes (t : Task α) (_ : World) : List Note :=
  match t.wait with
  | .time .. => [.quit t.owed]
  | .answer flight .. => .quit t.owed :: flight.dropNotes
  | .response .. => [.quit t.owed, .finished none]
  | .nothing .. => []

end Task

/-! ## Entries of a run -/

namespace State

/-- The entries of a call that a task left behind when it came to its new
standing. -/
def leaveEntries (task : Task α) (standing : Standing α) : Log :=
  match (task.standing standing).hasEnded, standing.owed with
  | true, some owed => entriesOf standing.world.mono none (standing.world.sendNotes owed)
  | _, _ => []

/-- The entries of a step of a task. -/
def stepEntries (s : State α) (i : Nat) (f : Task α → World → Standing α)
    (notes : Task α → World → List Note) : Log :=
  match s.tasks[i]? with
  | some task =>
      leaveEntries task (f task s.world) ++
        entriesOf s.world.mono (some i) (notes task s.world)
  | none => []

/-- The entries of a wait of a call that was left behind. -/
def deliverEntries (s : State α) (j : Nat) : Log :=
  match s.detached[j]? with
  | some flight => entriesOf s.world.mono none (s.world.proceedNotes flight)
  | none => []

/-- The entries of a move. -/
def entries (s : State α) : Move → Log
  | .resume i => s.stepEntries i Task.resume Task.resumeNotes
  | .expire i => s.stepEntries i Task.expire Task.expireNotes
  | .cancel i => s.stepEntries i Task.cancel Task.cancelNotes
  | .deliver j => s.deliverEntries j

/-- The run with other clocks. -/
def withClocks (s : State α) (f : Clocks → Clocks) : State α :=
  { s with world := { s.world with clocks := f s.world.clocks } }

/-- The run with a purged store. -/
def purge (s : State α) : State α :=
  { s with world := { s.world with store := s.world.store.purge s.world.mono } }

end State

/-! ## Chronicles -/

/-- One thing that can happen in a run from outside. -/
inductive Happening where
  /-- Time passes until the monotonic clock shows `moment`. -/
  | pass (moment : Nat)
  /-- A move is made. -/
  | move (m : Move)
  /-- The store is purged. -/
  | purge
  /-- The wall clock is set. -/
  | setWall (time : Timestamp)
  /-- The manual clock is set, where there is one. -/
  | setManual (time : Timestamp)
  deriving DecidableEq

/-- A run with its log. -/
structure Chronicle (α : Type) where
  state : State α
  log : Log

namespace Chronicle

/-- The chronicle after something happened. -/
def after (h : Chronicle α) : Happening → Chronicle α
  | .pass moment => { h with state := h.state.withClocks (·.elapseTo moment) }
  | .move m => ⟨h.state.apply m, h.state.entries m ++ h.log⟩
  | .purge => { h with state := h.state.purge }
  | .setWall time => { h with state := h.state.withClocks (·.setWall time) }
  | .setManual time => { h with state := h.state.withClocks (·.setManual time) }

/-- The chronicle of a run in which the given things happen. -/
def of (s : State α) (happenings : List Happening) : Chronicle α :=
  happenings.foldl after ⟨s, []⟩

end Chronicle

@[simp]
theorem chronicle_nil (s : State α) : Chronicle.of s [] = ⟨s, []⟩ := rfl

/-- A chronicle goes on where it stands. -/
theorem chronicle_append (s : State α) (before : List Happening) (e : Happening) :
    Chronicle.of s (before ++ [e]) = (Chronicle.of s before).after e := by
  simp [Chronicle.of]

/-- The log of two moves. -/
theorem log_move_move (s : State α) (m m' : Move) :
    (Chronicle.of s [.move m, .move m']).log = (s.apply m).entries m' ++ (s.entries m ++ []) := rfl

/-- The state after a move. -/
theorem state_move (s : State α) (m : Move) : (Chronicle.of s [.move m]).state = s.apply m := rfl

/-- The state after two moves. -/
theorem state_move_move (s : State α) (m m' : Move) :
    (Chronicle.of s [.move m, .move m']).state = (s.apply m).apply m' := rfl

/-- What holds of a chronicle at its start, and of one after each happening if
it held before, holds of every chronicle. -/
theorem chronicle_induction {P : Chronicle α → Prop} (s : State α) (hstart : P ⟨s, []⟩)
    {happenings : List Happening}
    (hstep : ∀ h : Chronicle α, ∀ e ∈ happenings, P h → P (h.after e)) :
    P (Chronicle.of s happenings) := by
  unfold Chronicle.of
  generalize (⟨s, []⟩ : Chronicle α) = h at hstart ⊢
  induction happenings generalizing h with
  | nil => exact hstart
  | cons e rest ih =>
      rw [List.foldl_cons]
      have hfirst : P (h.after e) := hstep h e List.mem_cons_self hstart
      exact ih (fun h' e' he' => hstep h' e' (List.mem_cons_of_mem e he')) (h.after e) hfirst

/-! ## The schedule -/

/-- Where a list of happenings leads from a state. -/
def State.through (s : State α) (happenings : List Happening) : State α :=
  (Chronicle.of s happenings).state

/-- The log does not matter for where a run goes. -/
theorem state_foldl_after (happenings : List Happening) (s : State α) (log : Log) :
    (happenings.foldl Chronicle.after ⟨s, log⟩).state = s.through happenings := by
  unfold State.through Chronicle.of
  generalize ([] : Log) = log'
  induction happenings generalizing s log log' with
  | nil => rfl
  | cons e rest ih =>
      simp only [List.foldl_cons]
      cases e <;> exact ih _ _ _

theorem through_cons (s : State α) (e : Happening) (rest : List Happening) :
    s.through (e :: rest) = (Chronicle.after ⟨s, []⟩ e).state.through rest := by
  rw [← state_foldl_after rest _ (Chronicle.after ⟨s, []⟩ e).log]
  rfl

/-- A move that is made when it is due is the passing of time and the move. -/
theorem through_make (s : State α) (m : State.DueMove) (rest : List Happening) :
    s.through (.pass m.1 :: .move m.2 :: rest) = (s.make m).through rest := by
  rw [through_cons, through_cons]
  rfl

/-- The schedule of a run is a list of happenings. -/
theorem exists_chronicle_run (s : State α) :
    ∃ happenings, (Chronicle.of s happenings).state = s.run := by
  have hfor : ∀ fuel, ∀ s : State α, ∃ happenings, s.through happenings = s.runFor fuel := by
    intro fuel
    induction fuel with
    | zero =>
        intro s
        exact ⟨[], rfl⟩
    | succ fuel ih =>
        intro s
        by_cases hended : s.allEnded = true
        · refine ⟨[], ?_⟩
          rw [State.runFor, if_pos hended]
          rfl
        · rw [State.runFor, if_neg hended]
          cases hfirst : State.earliest s.moves with
          | none => exact ⟨[], rfl⟩
          | some m =>
              rcases ih (s.make m) with ⟨rest, hrest⟩
              refine ⟨.pass m.1 :: .move m.2 :: rest, ?_⟩
              rw [through_make, hrest]
  exact hfor _ s

/-! ## Ends -/

/-- How the task in a place ended, and when. -/
def State.ended? (s : State α) (i : Nat) : Option (Ending α × Nat) :=
  match s.tasks[i]?.map Task.wait with
  | some (.nothing ending time) => some (ending, time)
  | _ => none

end Turnstile.Run
