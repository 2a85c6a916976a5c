/-!
# Nearest binary64 numbers

The number with 53 significant bits that is nearest to a fraction, ties going
to the even significand.  Exact natural numbers carry all of it.
-/

namespace Turnstile.Text.Binary64

/-- A non-negative number `significand * 2 ^ exponent`, the exponent being
given as the difference of two natural numbers. -/
structure Dyadic where
  significand : Nat
  up : Nat
  down : Nat
  deriving DecidableEq

/-- The quotient rounded to the nearest whole number, a tie to the even one. -/
def roundQuotient (num den : Nat) : Nat :=
  let q := num / den
  let r := num % den
  if 2 * r < den then q else if den < 2 * r then q + 1 else if q % 2 = 0 then q else q + 1

/-- The binary64 number nearest to `num / den`, for a positive `den`; `none`
where that is infinite. -/
def nearest? (num den : Nat) : Option Dyadic :=
  if num = 0 then some ⟨0, 0, 0⟩
  else
    let magnitude : Int := (Nat.log2 num : Int) - Nat.log2 den
    -- the quotient has `magnitude` or `magnitude + 1` bits before the point
    let fits (e : Int) : Bool :=
      if 0 ≤ e then num < den <<< (53 + e.toNat) else num <<< (-e).toNat < den <<< 53
    let e₀ := magnitude - 53
    let e₁ := if fits e₀ then e₀ else e₀ + 1
    let e := max e₁ (-1074)
    let s := if 0 ≤ e then roundQuotient num (den <<< e.toNat)
      else roundQuotient (num <<< (-e).toNat) den
    if 971 < e ∨ (e = 971 ∧ 9_007_199_254_740_992 ≤ s) then none else some ⟨s, e.toNat, (-e).toNat⟩

/-- The numerator of the number as a fraction over `2 ^ down`. -/
def Dyadic.numerator (d : Dyadic) : Nat := d.significand <<< d.up

/-- The denominator of the number as a fraction. -/
def Dyadic.denominator (d : Dyadic) : Nat := 1 <<< d.down

/-- The whole part of the number. -/
def Dyadic.floor (d : Dyadic) : Nat := d.numerator / d.denominator

/-- The nearest whole number, halves going up. -/
def Dyadic.round (d : Dyadic) : Nat := (2 * d.numerator + d.denominator) / (2 * d.denominator)

/-- The binary64 number nearest to `n * 10 ^ exponent`. -/
def ofDecimal? (n : Nat) (exponent : Int) : Option Dyadic :=
  if 0 ≤ exponent then nearest? (n * Nat.pow 10 exponent.toNat) 1
  else nearest? n (Nat.pow 10 (-exponent).toNat)

/-- The product of two numbers, rounded; `none` where that is infinite. -/
def Dyadic.times? (a b : Dyadic) : Option Dyadic :=
  nearest? (a.numerator * b.numerator) (a.denominator * b.denominator)

/-- The quotient of two numbers of which the second is not zero, rounded. -/
def Dyadic.over? (a b : Dyadic) : Option Dyadic :=
  nearest? (a.numerator * b.denominator) (a.denominator * b.numerator)

/-- The binary64 number nearest to a power of ten. -/
def powerOfTen? (exponent : Nat) : Option Dyadic :=
  nearest? (Nat.pow 10 exponent) 1

/-- The exponent of the largest power of ten that is finite. -/
def maxPower : Nat := 308

/-- The number `n * 10 ^ exponent` in single steps: `n` is rounded, then the
power of ten, then their product or quotient.  An exponent that is too small for
one division takes two; a third would leave nothing of any `n` below
`18_446_744_073_709_551_616`.  `none` where the number is infinite. -/
def scaled? (n : Nat) (exponent : Int) : Option Dyadic := do
  let base ← nearest? n 1
  let distance := exponent.natAbs
  if 0 ≤ exponent then
    if distance ≤ maxPower then base.times? (← powerOfTen? distance)
    else if n = 0 then some base
    else none
  else if distance ≤ maxPower then base.over? (← powerOfTen? distance)
  else if distance ≤ 2 * maxPower then
    let part ← base.over? (← powerOfTen? maxPower)
    part.over? (← powerOfTen? (distance - maxPower))
  else nearest? 0 1

end Turnstile.Text.Binary64
