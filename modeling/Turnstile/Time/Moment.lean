import Turnstile.Time.Span

/-!
# Moments

A moment is a reading of a monotonic clock, in nanoseconds from the origin of
that clock.  A run may begin at any reading, which is how long the clock has
been running by then.  The range of the clock is bounded: a span may end beyond
it, and then has no end for an entry that is to expire, while a timer fires at
another time.

Main results:

- `le_timer`: a timer never fires before it is set.
-/

namespace Turnstile.Moment

/-- The first moment out of range: the clock counts 2^63 seconds. -/
def bound : Nat := 9_223_372_036_854_775_808_000_000_000

/-- The end of a span that begins at `now`, if that is in range. -/
def end? (now : Nat) (s : Span) : Option Nat :=
  if now + s.nanos < bound then some (now + s.nanos) else none

/-- How long a timer runs that is set for an end out of range: 30 years of 365
days. -/
def farFuture : Nat := 946_080_000_000_000_000

/-- The last moment at which a timer fires, 2^64 - 3 milliseconds from the
origin.  Timers that count from a later start fire that much later, which only
shows in waits of millions of years. -/
def lastTick : Nat := 18_446_744_073_709_551_613_000_000

/-- When a timer fires that is set at `now` for a span: after whole
milliseconds. -/
def timer (now : Nat) (s : Span) : Nat :=
  match end? now s with
  | some _ => min (now + s.timerNanos) (max now lastTick)
  | none => now + farFuture

/-! ## Laws -/

/-- A timer never fires before it is set. -/
theorem le_timer (now : Nat) (s : Span) : now ≤ timer now s := by
  unfold timer
  split <;> omega

end Turnstile.Moment
