import Turnstile.Run.Task

/-!
# Runs

A run holds a world, the tasks that share it, and the calls that abandoned
tasks left behind.  It goes on by moves: a wait ends, a deadline passes, or a
task is cancelled.  Any order of moves is a run; the schedule takes the move
that is due first, and of several the one of the first task.
-/

namespace Turnstile.Run

open Store (Call)

variable {α : Type}

/-- A world with the tasks that share it. -/
structure State (α : Type) where
  world : World
  tasks : List (Task α)
  /-- The calls in flight that abandoned tasks left behind. -/
  detached : List Flight

/-- One thing that can happen in a run. -/
inductive Move where
  /-- The wait of a task ends. -/
  | resume (task : Nat)
  /-- The deadline of the call that a task waits for passes. -/
  | expire (task : Nat)
  /-- A task is cancelled. -/
  | cancel (task : Nat)
  /-- The wait of a call that was left behind ends. -/
  | deliver (flight : Nat)
  deriving DecidableEq

namespace State

/-- A run without tasks. -/
def idle (world : World) (detached : List Flight) : State α := ⟨world, [], detached⟩

/-- Keeps a call that was left behind while it is in flight. -/
def keepFlight (detached : List Flight) : Progress → List Flight
  | .waiting flight => detached ++ [flight]
  | _ => detached

/-- Begins the call that an abandoned task owes.  Tasks are abandoned while the run
goes on: one that is dropped after its surroundings were shut down has nothing left
in which its call could begin, and owes it in vain. -/
def leave (s : State α) (owed : Call) : State α :=
  let r := s.world.send owed
  { s with world := r.2, detached := keepFlight s.detached r.1 }

/-- The run after a task came to a new standing.  A task that has ended leaves
behind what it owes. -/
def place (s : State α) (i : Nat) (task : Task α) (standing : Standing α) : State α :=
  let task := task.standing standing
  let s := { s with world := standing.world, tasks := s.tasks.set i task }
  match task.hasEnded, task.owed with
  | true, some owed =>
      { s with tasks := s.tasks.set i { task with owed := none } }.leave owed
  | _, _ => s

/-- The run after a step of one of its tasks. -/
def step (s : State α) (i : Nat) (f : Task α → World → Standing α) : State α :=
  match s.tasks[i]? with
  | some task => s.place i task (f task s.world)
  | none => s

/-- The run after a wait of a call that was left behind. -/
def deliver (s : State α) (j : Nat) : State α :=
  match s.detached[j]? with
  | some flight =>
      let r := s.world.proceed flight
      { s with world := r.2, detached := keepFlight (s.detached.eraseIdx j) r.1 }
  | none => s

/-- The run after a move. -/
def apply (s : State α) : Move → State α
  | .resume i => s.step i Task.resume
  | .expire i => s.step i Task.expire
  | .cancel i => s.step i Task.cancel
  | .deliver j => s.deliver j

/-! ## The schedule -/

/-- A move with the time at which it is due. -/
abbrev DueMove := Nat × Move

/-- The moves of the `i`-th task that are due at some time. -/
def movesOf (i : Nat) (task : Task α) : List DueMove :=
  (task.due?.map fun due => (due, Move.resume i)).toList ++
  (task.expires?.map fun due => (due, Move.expire i)).toList ++
  (task.cancelled?.map fun due => (due, Move.cancel i)).toList

/-- The moves that are due at some time, in the order in which those that are
due together are taken. -/
def moves (s : State α) : List DueMove :=
  (s.tasks.mapIdx movesOf).flatten ++
  s.detached.mapIdx fun j flight => (flight.due, Move.deliver j)

/-- The first of the moves that are due first. -/
def earliest : List DueMove → Option DueMove
  | [] => none
  | m :: rest =>
      match earliest rest with
      | some other => some (if m.1 ≤ other.1 then m else other)
      | none => some m

/-- Makes a move when it is due. -/
def make (s : State α) (m : DueMove) : State α :=
  { s with world := s.world.elapseTo m.1 }.apply m.2

/-- Whether all tasks have ended. -/
def allEnded (s : State α) : Bool :=
  s.tasks.all Task.hasEnded

/-- Makes the moves that are due while a task has not ended; `fuel` bounds
their number. -/
def runFor : Nat → State α → State α
  | 0, s => s
  | fuel + 1, s =>
      if s.allEnded then s
      else
        match earliest s.moves with
        | some m => runFor fuel (s.make m)
        | none => s

/-- More moves than a task of the library makes. -/
def movesPerTask : Nat := 64

/-- Runs the tasks to their ends. -/
def run (s : State α) : State α :=
  runFor (movesPerTask * (s.tasks.length + s.detached.length)) s

/-- Makes the moves of calls left behind that are due up to `moment`. -/
def elapseFor (moment : Nat) : Nat → State α → State α
  | 0, s => s
  | fuel + 1, s =>
      match earliest s.moves with
      | some m => if m.1 ≤ moment then elapseFor moment fuel (s.make m) else s
      | none => s

/-- Time passes until the monotonic clock shows `moment`, with what is due on
the way. -/
def elapseTo (s : State α) (moment : Nat) : State α :=
  let s := elapseFor moment (movesPerTask * (s.tasks.length + s.detached.length)) s
  { s with world := s.world.elapseTo moment }

end State

end Turnstile.Run
