import Turnstile.Event.Basic
import Turnstile.Run.Clocks
import Turnstile.Run.Fault
import Turnstile.Store.Local

/-!
# The surroundings of a run

The world holds what the tasks of a run share: the clocks, a local store with
the plan of its faults, and what was called, reported, served and drawn so far.

A call that waits is in flight.  Whoever gives it up in flight leaves it as it
is: not carried out while it waits for that, and carried out while its answer
waits.
-/

namespace Turnstile.Run

open Store (Answer Call LocalStore Operation)

/-- What the tasks of a run share. -/
structure World where
  clocks : Clocks
  store : LocalStore
  plan : Plan
  counts : Counts
  /-- The tokens that were issued. -/
  tokens : Nat
  /-- The handler runs that were begun. -/
  served : Nat
  /-- The numbers that were drawn. -/
  drawn : Nat
  /-- The calls that were begun, the last one first. -/
  calls : List Call
  /-- The events that were reported, the last one first. -/
  events : List Event

namespace World

/-- The world at the start of a run. -/
def start (clocks : Clocks) (plan : Plan) : World :=
  ⟨clocks, .empty, plan, .zero, 0, 0, 0, [], []⟩

/-- Takes up another plan and counts the calls from one again. -/
def withPlan (w : World) (plan : Plan) : World :=
  { w with plan := plan, counts := .zero }

/-- Forgets the calls and events so far. -/
def clearLogs (w : World) : World :=
  { w with calls := [], events := [] }

/-- The reading of the monotonic clock. -/
def mono (w : World) : Nat := w.clocks.mono

/-- Time passes until the monotonic clock shows `moment`. -/
def elapseTo (w : World) (moment : Nat) : World :=
  { w with clocks := w.clocks.elapseTo moment }

/-- Carries out a call at once and apart from the plan. -/
def perform (w : World) (call : Call) : Except Store.Overflow (Answer × World) :=
  (w.store.perform w.mono (.issued (w.tokens + 1)) call).map fun r =>
    (r.1, { w with store := r.2, tokens := w.tokens + 1 })

end World

/-! ## Calls -/

/-- What a call in flight waits for. -/
inductive Phase where
  /-- To be carried out, under the rest of its treatment. -/
  | outbound (call : Call) (treatment : Treatment)
  /-- To be answered. -/
  | inbound (answer : Answer)
  deriving DecidableEq

/-- A call in flight. -/
structure Flight where
  phase : Phase
  /-- When its wait ends, by the monotonic clock. -/
  due : Nat
  deriving DecidableEq

/-- How far a call has come. -/
inductive Progress where
  | answered (result : Except Store.Error Answer)
  | waiting (flight : Flight)
  /-- The call cannot be carried out at all. -/
  | overflow

namespace World

/-- Carries out a call whose wait is over. -/
def carryOut (w : World) (call : Call) (treatment : Treatment) : Progress × World :=
  match treatment.failure with
  | some error => (.answered (.error error), w)
  | none =>
      match w.perform call with
      | .error _ => (.overflow, w)
      | .ok (answer, w) =>
          match treatment.after with
          | some wait => (.waiting ⟨.inbound answer, w.mono + wait⟩, w)
          | none => (.answered (.ok answer), w)

/-- Begins a call. -/
def send (w : World) (call : Call) : Progress × World :=
  let counts := w.counts.next call.operation
  let treatment := w.plan call.operation (counts call.operation)
  let w := { w with counts := counts, calls := call :: w.calls }
  match treatment.before with
  | some wait => (.waiting ⟨.outbound call treatment, w.mono + wait⟩, w)
  | none => w.carryOut call treatment

/-- Goes on with a call in flight whose wait is over. -/
def proceed (w : World) (flight : Flight) : Progress × World :=
  match flight.phase with
  | .outbound call treatment => w.carryOut call treatment
  | .inbound answer => (.answered (.ok answer), w)

end World

end Turnstile.Run
