import Turnstile.Bytes

/-!
# Decimal numerals

Whole numbers as decimal digits.  A numeral is written with the fewest digits
and may be read with any number of leading zeros.

Main results:

- `value?_digits`: the digits of a number read back as that number.
-/

namespace Turnstile.Text.Decimal

/-- The digit of a number below ten. -/
def digit (n : Nat) : Char :=
  Char.ofNat (48 + n)

/-- Whether a character is a decimal digit of ASCII. -/
def isDigit (c : Char) : Bool :=
  48 ≤ c.toNat && c.toNat ≤ 57

/-- The digits of a number, without leading zeros. -/
def digits (n : Nat) : List Char :=
  if n < 10 then [digit n] else digits (n / 10) ++ [digit (n % 10)]
termination_by n
decreasing_by omega

/-- The digits of a number, with leading zeros up to a width. -/
def padded (width n : Nat) : List Char :=
  let ds := digits n
  List.replicate (width - ds.length) '0' ++ ds

/-- The digits of a whole number, after a minus sign if it is negative. -/
def signed (n : Int) : List Char :=
  if n < 0 then '-' :: digits n.natAbs else digits n.natAbs

/-- The numeral of a natural number. -/
def ofNat (n : Nat) : String :=
  String.ofList (digits n)

/-- The numeral of a whole number. -/
def ofInt (n : Int) : String :=
  String.ofList (signed n)

/-- The number that the digits stand for when `acc` stands before them. -/
def valueFrom (acc : Nat) (cs : List Char) : Nat :=
  cs.foldl (fun n c => n * 10 + (c.toNat - 48)) acc

/-- The number that one or more digits stand for. -/
def value? (cs : List Char) : Option Nat :=
  if cs.isEmpty then none
  else if cs.all isDigit then some (valueFrom 0 cs) else none

/-- Reads digits, after a plus sign or none, as a number of at most `bound`. -/
def bounded? (bound : Nat) (cs : List Char) : Option Nat :=
  let body := match cs with
    | '+' :: rest => rest
    | cs => cs
  (value? body).filter (· ≤ bound)

/-! ## Reading back -/

theorem isDigit_digit : ∀ {n : Nat}, n < 10 → isDigit (digit n) = true := by
  decide

theorem toNat_digit : ∀ {n : Nat}, n < 10 → (digit n).toNat = 48 + n := by
  decide

theorem digits_ne_nil (n : Nat) : digits n ≠ [] := by
  unfold digits
  split <;> simp

theorem all_isDigit_digits (n : Nat) : (digits n).all isDigit = true := by
  induction n using digits.induct with
  | case1 n h => unfold digits; simp [h, isDigit_digit h]
  | case2 n h ih =>
      unfold digits
      simp only [h, if_false, List.all_append, ih, Bool.true_and, List.all_cons, List.all_nil,
        Bool.and_true]
      exact isDigit_digit (Nat.mod_lt _ (by decide))

theorem valueFrom_append (acc : Nat) (xs ys : List Char) :
    valueFrom acc (xs ++ ys) = valueFrom (valueFrom acc xs) ys := by
  simp [valueFrom]

theorem valueFrom_digits (n : Nat) : valueFrom 0 (digits n) = n := by
  induction n using digits.induct with
  | case1 n h => unfold digits; simp [h, valueFrom, toNat_digit h]
  | case2 n h ih =>
      unfold digits
      simp only [h, if_false, valueFrom_append, ih]
      simp only [valueFrom, List.foldl_cons, List.foldl_nil,
        toNat_digit (Nat.mod_lt n (by decide))]
      omega

/-- The digits of a number read back as that number. -/
theorem value?_digits (n : Nat) : value? (digits n) = some n := by
  simp [value?, digits_ne_nil, all_isDigit_digits, valueFrom_digits]

/-- A numeral is read back as its number. -/
@[simp]
theorem value?_ofNat (n : Nat) : value? (ofNat n).toList = some n := by
  simp [ofNat, value?_digits]

end Turnstile.Text.Decimal
