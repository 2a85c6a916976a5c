import Turnstile.Text.Binary64
import Turnstile.Text.Blank
import Turnstile.Text.Decimal

/-!
# Scores

A server writes the score of an entry as a decimal number, which is read as the
nearest binary64 number and then cut to a whole number.  A score out of the
range of stamps becomes the stamp at that end of the range.
-/

namespace Turnstile.Redis

open Text.Decimal (isDigit valueFrom)

/-- A number as it is written: a sign and a magnitude. -/
inductive Magnitude where
  | finite (significand : Nat) (exponent : Int)
  | infinite
  /-- No number. -/
  | undefined
  deriving DecidableEq

/-- A letter of ASCII in lower case. -/
def lowerLetter (c : Char) : Char :=
  if 65 ≤ c.toNat ∧ c.toNat ≤ 90 then Char.ofNat (c.toNat + 32) else c

/-- The words that stand for magnitudes. -/
def magnitudeOfWord? (cs : List Char) : Option Magnitude :=
  let word := String.ofList (cs.map lowerLetter)
  if word = "inf" ∨ word = "infinity" then some .infinite
  else if word = "nan" then some .undefined
  else none

/-- An exponent: an optional sign and digits. -/
def exponent? (cs : List Char) : Option Int :=
  match cs with
  | '-' :: rest => (Text.Decimal.value? rest).map fun n => -(n : Int)
  | '+' :: rest => (Text.Decimal.value? rest).map fun n => (n : Int)
  | cs => (Text.Decimal.value? cs).map fun n => (n : Int)

/-- Digits with at most one point among them, and an exponent or none. -/
def decimal? (cs : List Char) : Option Magnitude := do
  let whole := cs.takeWhile isDigit
  let rest := cs.drop whole.length
  let (fraction, rest) := match rest with
    | '.' :: rest => (rest.takeWhile isDigit, rest.dropWhile isDigit)
    | rest => ([], rest)
  if whole.isEmpty && fraction.isEmpty then none
  let exponent ← match rest with
    | [] => some 0
    | c :: rest => if lowerLetter c = 'e' then exponent? rest else none
  some (.finite (valueFrom 0 (whole ++ fraction)) (exponent - fraction.length))

/-- The number that a text is the written form of. -/
def readScore? (text : String) : Option (Bool × Magnitude) :=
  let signed := match text.toList with
    | '-' :: rest => (true, rest)
    | '+' :: rest => (false, rest)
    | cs => (false, cs)
  ((magnitudeOfWord? signed.2).or (decimal? signed.2)).map fun m => (signed.1, m)

/-- The whole part of a magnitude, at most `18_446_744_073_709_551_616`. -/
def wholePart : Magnitude → Nat
  | .undefined => 0
  | .infinite => 18_446_744_073_709_551_616
  | .finite significand exponent =>
      let digits := (Text.Decimal.digits significand).length
      if significand = 0 ∨ exponent + digits < 0 then 0
      else if 30 < exponent + digits then 18_446_744_073_709_551_616
      else
        match Text.Binary64.ofDecimal? significand exponent with
        | some d => min d.floor (18_446_744_073_709_551_616)
        | none => 18_446_744_073_709_551_616

/-- The stamp that a written score stands for. -/
def stampOfScore? (text : String) : Option Int :=
  (readScore? text).map fun (isNegative, m) =>
    let n : Int := wholePart m
    if isNegative then max (-n) (-9_223_372_036_854_775_808) else min n 9_223_372_036_854_775_807

end Turnstile.Redis
