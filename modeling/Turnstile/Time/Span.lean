import Turnstile.Text.Decimal

/-!
# Spans of time

A span is a length of time in whole nanoseconds, such as a time to live, a
window or a deadline.  The longest span has 2^64 - 1 seconds and 999999999
nanoseconds.

Main results:

- `le_ceilSeconds`: a span is no longer than the whole seconds that it is
  rounded up to.
- `ceilSeconds_le`: it is rounded up no further than it has to be.
-/

namespace Turnstile

/-- A length of time. -/
structure Span where
  nanos : Nat
  deriving DecidableEq

namespace Span

/-- The first number of nanoseconds that is too many for a span. -/
def bound : Nat := 18_446_744_073_709_551_616_000_000_000

/-- The first number of whole seconds that is too many for a span. -/
def secondsBound : Nat := 18_446_744_073_709_551_616

/-- A span of whole seconds. -/
def ofSeconds (n : Nat) : Span := ⟨n * 1_000_000_000⟩

/-- A span of whole milliseconds. -/
def ofMillis (n : Nat) : Span := ⟨n * 1_000_000⟩

/-- The span of no time. -/
def zero : Span := ⟨0⟩

/-- The whole seconds of a span. -/
def seconds (s : Span) : Nat := s.nanos / 1_000_000_000

/-- The nanoseconds of a span beyond its whole seconds. -/
def subsecNanos (s : Span) : Nat := s.nanos % 1_000_000_000

/-- The whole seconds of a span after rounding it up. -/
def ceilSeconds (s : Span) : Nat := s.seconds + if s.subsecNanos = 0 then 0 else 1

/-- The whole milliseconds of a span. -/
def wholeMillis (s : Span) : Nat := s.nanos / 1_000_000

/-- The nanoseconds of a span after rounding it up to whole milliseconds, as a
timer does. -/
def timerNanos (s : Span) : Nat := (s.nanos + 999999) / 1_000_000 * 1_000_000

/-- The shorter of two spans. -/
def min (a b : Span) : Span := if a.nanos ≤ b.nanos then a else b

/-- The sum of two spans, unless it is too long for a span. -/
def add? (a b : Span) : Option Span :=
  let total := a.nanos + b.nanos
  if total < bound then some ⟨total⟩ else none

/-! ## Rounding up -/

@[simp]
theorem seconds_ofSeconds (n : Nat) : (ofSeconds n).seconds = n :=
  Nat.mul_div_cancel n (by decide)

/-- A span is no longer than the whole seconds that it is rounded up to. -/
theorem le_ceilSeconds (s : Span) : s.nanos ≤ (ofSeconds s.ceilSeconds).nanos := by
  unfold ceilSeconds ofSeconds seconds subsecNanos
  split <;> simp only <;> omega

/-- A span that is no longer than some whole seconds is not rounded up beyond
them. -/
theorem ceilSeconds_le {s : Span} {n : Nat} (h : s.nanos ≤ (ofSeconds n).nanos) :
    s.ceilSeconds ≤ n := by
  unfold ofSeconds at h
  unfold ceilSeconds seconds subsecNanos
  dsimp only at h
  split <;> omega

/-- A span is rounded up to no more seconds than there are too many for one. -/
theorem ceilSeconds_le_secondsBound {s : Span} (h : s.nanos < bound) :
    s.ceilSeconds ≤ secondsBound := by
  exact ceilSeconds_le (Nat.le_of_lt h)

/-! ## Written form -/

/-- A fraction given by `width` digits, without trailing zeros; nothing for
zero. -/
def fraction (width n : Nat) : List Char :=
  if n = 0 then []
  else '.' :: ((Text.Decimal.padded width n).reverse.dropWhile (· == '0')).reverse

/-- A span in the largest unit that has a whole part other than zero. -/
def describe (s : Span) : String :=
  let n := s.nanos
  let scaled (unit width : Nat) (name : String) : String :=
    String.ofList (Text.Decimal.digits (n / unit) ++ fraction width (n % unit)) ++ name
  if 1_000_000_000 ≤ n then scaled (1_000_000_000) 9 "s"
  else if 1_000_000 ≤ n then scaled (1_000_000) 6 "ms"
  else if 1_000 ≤ n then scaled (1_000) 3 "µs"
  else scaled 1 0 "ns"

end Span

end Turnstile
