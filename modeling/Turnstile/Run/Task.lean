import Turnstile.Program
import Turnstile.Run.World

/-!
# Tasks

A task is a program that is being run.  It goes on until it has to wait: for
the answer of a call, for the end of a span of time, or for its handler.  A
task that breaks off or is cancelled leaves what it owes to the store behind,
and that call is begun at once.
-/

namespace Turnstile.Run

open Store (Answer Call)

/-- The handler behind the guards of a task. -/
structure Handler where
  /-- The nanoseconds for which a request waits for its response. -/
  delay : Option Nat
  /-- The response to a request in the handler run of the given number; `none`
  if that breaks off. -/
  answer : Nat → Http.Request → Option Http.Response

/-- How a task ended. -/
inductive Ending (α : Type) where
  | result (a : α)
  | crashed
  | cancelled
  deriving DecidableEq

/-- What a task waits for. -/
inductive Wait (α : Type) where
  /-- The time at which its program goes on. -/
  | time (due : Nat) (program : Program α)
  /-- The answer of a call, until the deadline. -/
  | answer (flight : Flight) (expires : Nat) (deadline : Span) (call : Call)
      (next : Except Store.Error Answer → Program α)
  /-- The response of its handler. -/
  | response (due : Nat) (response : Option Http.Response) (next : Http.Response → Program α)
  /-- Nothing: the task has ended, when the monotonic clock showed `time`. -/
  | nothing (ending : Ending α) (time : Nat)

/-- A task. -/
structure Task (α : Type) where
  wait : Wait α
  /-- The call that is owed to the store if the task is given up. -/
  owed : Option Call
  handler : Handler
  /-- When the task is cancelled, if it has not ended by then. -/
  cancelAt : Option Nat

/-- Where a program stands when it cannot go on at once. -/
structure Standing (α : Type) where
  wait : Wait α
  owed : Option Call
  world : World

variable {α : Type}

/-- Runs a program until it has to wait. -/
def settle (handler : Handler) (w : World) (owed : Option Call) : Program α → Standing α
  | .done result => ⟨.nothing (.result result) w.mono, none, w⟩
  | .crash => ⟨.nothing .crashed w.mono, owed, w⟩
  | .call call deadline next =>
      match w.send call with
      | (.answered result, w) => settle handler w owed (next result)
      | (.waiting flight, w) =>
          ⟨.answer flight (Moment.timer w.mono deadline) deadline call next, owed, w⟩
      | (.overflow, w) => ⟨.nothing .crashed w.mono, owed, w⟩
  | .sleep span next =>
      if span.timerNanos = 0 then settle handler w owed next
      else ⟨.time (Moment.timer w.mono span) next, owed, w⟩
  | .now next => settle handler w owed (next w.clocks.now)
  | .emit event next => settle handler { w with events := event :: w.events } owed next
  | .serve request next =>
      let w := { w with served := w.served + 1 }
      let response := handler.answer w.served request
      match handler.delay, response with
      | some delay, response => ⟨.response (w.mono + delay) response next, owed, w⟩
      | none, some response => settle handler w owed (next response)
      | none, none => ⟨.nothing .crashed w.mono, owed, w⟩
  | .fresh next =>
      let w := { w with drawn := w.drawn + 1 }
      settle handler w owed (next w.drawn)
  | .hold call next => settle handler w (some call) next
  | .unhold next => settle handler w none next

/-- Goes on with a task after its wait for the answer of a call has come to the
given progress. -/
def afterProgress (handler : Handler) (owed : Option Call) (expires : Nat) (deadline : Span)
    (call : Call) (next : Except Store.Error Answer → Program α) :
    Progress × World → Standing α
  | (.answered result, w) => settle handler w owed (next result)
  | (.waiting flight, w) => ⟨.answer flight expires deadline call next, owed, w⟩
  | (.overflow, w) => ⟨.nothing .crashed w.mono, owed, w⟩

namespace Task

/-- A task that starts at a reading of the monotonic clock. -/
def start (program : Program α) (handler : Handler) (time : Nat) (cancelAt : Option Nat) :
    Task α :=
  ⟨.time time program, none, handler, cancelAt⟩

/-- The task with a new standing. -/
def standing (t : Task α) (s : Standing α) : Task α :=
  { t with wait := s.wait, owed := s.owed }

/-- Whether the task has ended. -/
def hasEnded (t : Task α) : Bool :=
  match t.wait with
  | .nothing .. => true
  | _ => false

/-- When the wait of the task ends. -/
def due? (t : Task α) : Option Nat :=
  match t.wait with
  | .time due _ => some due
  | .answer flight .. => some flight.due
  | .response due .. => some due
  | .nothing .. => none

/-- When the call that the task waits for reaches its deadline. -/
def expires? (t : Task α) : Option Nat :=
  match t.wait with
  | .answer _ expires .. => some expires
  | _ => none

/-- When the task is cancelled. -/
def cancelled? (t : Task α) : Option Nat :=
  if t.hasEnded then none else t.cancelAt

/-- Goes on with a task whose wait is over. -/
def resume (t : Task α) (w : World) : Standing α :=
  match t.wait with
  | .time _ program => settle t.handler w t.owed program
  | .answer flight expires deadline call next =>
      afterProgress t.handler t.owed expires deadline call next (w.proceed flight)
  | .response _ (some response) next => settle t.handler w t.owed (next response)
  | .response _ none _ => ⟨.nothing .crashed w.mono, t.owed, w⟩
  | .nothing ending time => ⟨.nothing ending time, t.owed, w⟩

/-- Gives up the call that the task waits for. -/
def expire (t : Task α) (w : World) : Standing α :=
  match t.wait with
  | .answer _ _ deadline call next =>
      settle t.handler w t.owed (next (.error (.timeout call.operation deadline)))
  | wait => ⟨wait, t.owed, w⟩

/-- Cancels a task that has not ended. -/
def cancel (t : Task α) (w : World) : Standing α :=
  if t.hasEnded then ⟨t.wait, t.owed, w⟩ else ⟨.nothing .cancelled w.mono, t.owed, w⟩

end Task

end Turnstile.Run
