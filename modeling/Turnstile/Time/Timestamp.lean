import Turnstile.Time.Span

/-!
# Instants of the wall clock

An instant is counted in seconds from the beginning of 1970 in UTC, with
nanoseconds below the second.  A leap second is the second before it with a
thousand million nanoseconds more.

Main results:

- `Timestamp.addSaturating_le_latest`: a sum never passes the latest instant.
-/

namespace Turnstile

/-- An instant of the wall clock. -/
structure Timestamp where
  seconds : Int
  nanos : Nat
  deriving DecidableEq

namespace Timestamp

/-- The beginning of 1970. -/
def epoch : Timestamp := ⟨0, 0⟩

/-- The earliest instant, at the beginning of the year -262143. -/
def earliest : Timestamp := ⟨-8334601228800, 0⟩

/-- The latest instant, at the end of the year 262142. -/
def latest : Timestamp := ⟨8210266876799, 999999999⟩

/-- The order of instants. -/
def le (a b : Timestamp) : Bool :=
  a.seconds < b.seconds || (a.seconds == b.seconds && a.nanos ≤ b.nanos)

/-- The nanoseconds from the beginning of 1970. -/
def totalNanos (t : Timestamp) : Int :=
  t.seconds * 1_000_000_000 + t.nanos

/-- The instant with the given number of nanoseconds from the beginning of
1970. -/
def ofTotalNanos (n : Int) : Timestamp :=
  ⟨n / 1_000_000_000, (n % 1_000_000_000).toNat⟩

/-- The instant a span later, unless that is after the latest one. -/
def add? (t : Timestamp) (s : Span) : Option Timestamp :=
  let sum := ofTotalNanos (t.totalNanos + s.nanos)
  if sum.le latest then some sum else none

/-- The instant a span later, or the latest one if that comes first. -/
def addSaturating (t : Timestamp) (s : Span) : Timestamp :=
  (t.add? s).getD latest

/-- The largest count of nanoseconds that a stamp can hold. -/
def maxStamp : Int := 9_223_372_036_854_775_807

/-- The smallest count of nanoseconds that a stamp can hold. -/
def minStamp : Int := -9_223_372_036_854_775_808

/-- The nanoseconds from the beginning of 1970 as a stamp; an instant out of
the range of stamps, before 1677 or after 2262, has the largest one. -/
def stamp (t : Timestamp) : Int :=
  let n := t.totalNanos
  if minStamp ≤ n ∧ n ≤ maxStamp then n else maxStamp

theorem addSaturating_le_latest (t : Timestamp) (s : Span) :
    (t.addSaturating s).le latest = true := by
  unfold addSaturating add?
  by_cases h : (ofTotalNanos (t.totalNanos + s.nanos)).le latest = true
  · simp [h]
  · simp [h]; decide

end Timestamp

end Turnstile
