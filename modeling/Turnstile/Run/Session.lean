import Turnstile.Run.Schedule
import Turnstile.Store.Sweeper

/-!
# Sessions

A session goes from one run to the next over the same world: programs are run
one after the other or together, time passes or is set between them, and a
sweeper may purge the store meanwhile.
-/

namespace Turnstile.Run

/-- What lasts from one run to the next. -/
structure Session where
  world : World
  /-- The calls in flight that abandoned tasks left behind. -/
  detached : List Flight
  sweeper : Option Store.Sweeper

namespace Session

/-- The session over a store without entries. -/
def start (wall : Timestamp) (manual : Option Timestamp) (plan : Plan) : Session :=
  ⟨.start (.start wall manual) plan, [], none⟩

/-- The session with other clocks. -/
def withClocks (s : Session) (f : Clocks → Clocks) : Session :=
  { s with world := { s.world with clocks := f s.world.clocks } }

/-- The session with another plan, whose calls are counted from one. -/
def withPlan (s : Session) (plan : Plan) : Session :=
  { s with world := s.world.withPlan plan }

/-- The session without the calls and events so far. -/
def clearLogs (s : Session) : Session :=
  { s with world := s.world.clearLogs }

/-- The session with a purged store, and the number of entries removed. -/
def purge (s : Session) : Nat × Session :=
  let now := s.world.mono
  (s.world.store.purgeable now,
    { s with world := { s.world with store := s.world.store.purge now } })

/-- The session with a sweeper that is started now. -/
def startSweeper (s : Session) (every : Span) : Session :=
  { s with sweeper := Store.Sweeper.start? s.world.mono every }

/-- The session without a sweeper. -/
def stopSweeper (s : Session) : Session :=
  { s with sweeper := none }

/-- Time passes for a span, with what is due on the way. -/
def sleep (s : Session) (span : Span) : Session :=
  let begins := s.world.mono
  let finish := begins + span.nanos
  let state := State.elapseTo (State.idle s.world s.detached : State Unit) finish
  let s := { s with world := state.world, detached := state.detached }
  match s.sweeper with
  | none => s
  | some w =>
      let r := w.run begins finish s.world.store
      { s with world := { s.world with store := r.1 }, sweeper := some r.2 }

variable {α : Type}

/-- How a task ended, and when. -/
def endingOf (t : Task α) : Ending α × Nat :=
  match t.wait with
  | .nothing ending time => (ending, time)
  | _ => (.crashed, 0)

/-- Runs tasks together to their ends. -/
def together (s : Session) (tasks : List (Task α)) : List (Ending α × Nat) × Session :=
  let state := State.run ⟨s.world, tasks, s.detached⟩
  (state.tasks.map endingOf, { s with world := state.world, detached := state.detached })

/-- Runs one program to its end. -/
def alone (s : Session) (program : Program α) (handler : Handler) : Ending α × Session :=
  let r := s.together [Task.start program handler s.world.mono none]
  ((r.1.head?.map (·.1)).getD .crashed, r.2)

end Session

end Turnstile.Run
