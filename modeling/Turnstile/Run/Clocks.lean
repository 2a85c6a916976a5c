import Turnstile.Time.Timestamp

/-!
# Clocks of a run

A run has a monotonic clock, which may have been running for any time when the
run starts, and a wall clock, which moves with it unless it is set.  A guard may read a clock of
its own instead of the wall clock; such a manual clock only moves when it is
told to.

Main results:

- `elapse_wall`: the wall clock moves with the monotonic clock.
-/

namespace Turnstile.Run

/-- The clocks of a run. -/
structure Clocks where
  /-- The monotonic clock, in nanoseconds. -/
  mono : Nat
  /-- What the wall clock shows when the monotonic clock shows zero, in
  nanoseconds from the beginning of 1970. -/
  offset : Int
  /-- The manual clock, where the guards read one. -/
  manual : Option Timestamp
  deriving DecidableEq

namespace Clocks

/-- The clocks at the start of a run that counts from its start on. -/
def start (wall : Timestamp) (manual : Option Timestamp) : Clocks :=
  ⟨0, wall.totalNanos, manual⟩

/-- The clocks at the start of a run before which the monotonic clock has been
running for `uptime` nanoseconds. -/
def startAfter (uptime : Nat) (wall : Timestamp) (manual : Option Timestamp) : Clocks :=
  ⟨uptime, wall.totalNanos - uptime, manual⟩

/-- The reading of the wall clock. -/
def wall (c : Clocks) : Timestamp :=
  Timestamp.ofTotalNanos (c.offset + c.mono)

/-- The instant that the guards read. -/
def now (c : Clocks) : Timestamp :=
  c.manual.getD c.wall

/-- Time passes until the monotonic clock shows `moment`, if that is ahead. -/
def elapseTo (c : Clocks) (moment : Nat) : Clocks :=
  { c with mono := max c.mono moment }

/-- All clocks jump forward.  A manual clock cannot pass the latest instant. -/
def jump? (c : Clocks) (span : Span) : Option Clocks :=
  let moved := { c with mono := c.mono + span.nanos }
  match c.manual with
  | none => some moved
  | some t => (t.add? span).map fun t => { moved with manual := some t }

/-- Sets the wall clock alone. -/
def setWall (c : Clocks) (time : Timestamp) : Clocks :=
  { c with offset := time.totalNanos - c.mono }

/-- Sets the manual clock, where there is one. -/
def setManual (c : Clocks) (time : Timestamp) : Clocks :=
  { c with manual := c.manual.map fun _ => time }

/-! ## Laws -/

/-- The monotonic clock never moves back. -/
theorem mono_le_elapseTo (c : Clocks) (moment : Nat) : c.mono ≤ (c.elapseTo moment).mono :=
  Nat.le_max_left ..

/-- The wall clock moves with the monotonic clock. -/
theorem elapse_wall (c : Clocks) (n : Nat) :
    (c.elapseTo (c.mono + n)).wall = Timestamp.ofTotalNanos (c.offset + c.mono + n) := by
  have h : max c.mono (c.mono + n) = c.mono + n := by omega
  simp only [elapseTo, wall, h]
  congr 1
  omega

end Clocks

end Turnstile.Run
