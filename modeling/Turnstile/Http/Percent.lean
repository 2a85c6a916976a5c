import Turnstile.Bytes

/-!
# Percent-encoding

A path may hold any byte as a percent sign and two hexadecimal digits.  A
percent sign that is not followed by two digits stands for itself.

Main results:

- `decode_encode`: encoded bytes are decoded to what they were.
-/

namespace Turnstile.Http.Percent

/-- The value of a hexadecimal digit. -/
def hexValue? (c : Char) : Option Nat :=
  let n := c.toNat
  if 48 ≤ n ∧ n ≤ 57 then some (n - 48)
  else if 65 ≤ n ∧ n ≤ 70 then some (n - 55)
  else if 97 ≤ n ∧ n ≤ 102 then some (n - 87)
  else none

/-- The byte of two hexadecimal digits. -/
def byte? (high low : Char) : Option UInt8 := do
  let high ← hexValue? high
  let low ← hexValue? low
  some (UInt8.ofNat (high * 16 + low))

/-- The bytes that a text stands for. -/
def decode : List Char → Bytes
  | '%' :: high :: low :: rest =>
      match byte? high low with
      | some b => b :: decode rest
      | none => Bytes.ofText "%" ++ decode (high :: low :: rest)
  | c :: rest => Bytes.ofText (String.singleton c) ++ decode rest
  | [] => []

/-- The text that a segment of a path stands for, if its bytes are UTF-8. -/
def decodeText? (segment : List Char) : Option String :=
  Bytes.text? (decode segment)

/-- Every byte as a percent sign and two digits. -/
def encode (bytes : Bytes) : List Char :=
  bytes.flatMap fun b =>
    ['%', Bytes.hexDigit (b.toNat / 16), Bytes.hexDigit (b.toNat % 16)]

/-! ## Laws -/

theorem hexValue?_hexDigit : ∀ n < 16, hexValue? (Bytes.hexDigit n) = some n := by
  decide

theorem byte?_hexDigits (b : UInt8) :
    byte? (Bytes.hexDigit (b.toNat / 16)) (Bytes.hexDigit (b.toNat % 16)) = some b := by
  have hb := b.toNat_lt
  have h₁ : b.toNat / 16 < 16 := by omega
  have h₂ : b.toNat % 16 < 16 := Nat.mod_lt _ (by decide)
  have h₃ : b.toNat / 16 * 16 + b.toNat % 16 = b.toNat := by omega
  simp only [byte?, hexValue?_hexDigit _ h₁, hexValue?_hexDigit _ h₂, Option.bind_eq_bind,
    Option.bind_some, h₃, UInt8.ofNat_toNat]

/-- Encoded bytes are decoded to what they were. -/
theorem decode_encode (bytes : Bytes) : decode (encode bytes) = bytes := by
  induction bytes with
  | nil => rfl
  | cons b bytes ih =>
      simp only [encode, List.flatMap_cons, List.cons_append, List.nil_append]
      simp only [decode, byte?_hexDigits]
      exact congrArg (b :: ·) ih

/-- The text that was encoded is decoded. -/
theorem decodeText?_encode (text : String) :
    decodeText? (encode (Bytes.ofText text)) = some text := by
  simp [decodeText?, decode_encode]

end Turnstile.Http.Percent
