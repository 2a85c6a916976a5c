import Turnstile.Bytes

/-!
# Base64 for addresses

Bytes written in the alphabet of sixty-four characters that are safe in
addresses, without padding.  Three bytes make four characters; one or two bytes
at the end make two or three, whose unused bits are zero.

Main results:

- `value?_character`: the character of a value is read as that value.
-/

namespace Turnstile.Text.Base64Url

/-- The character of a value below sixty-four. -/
def character (v : Nat) : Char :=
  if v < 26 then Char.ofNat (65 + v)
  else if v < 52 then Char.ofNat (71 + v)
  else if v < 62 then Char.ofNat (v - 4)
  else if v = 62 then '-'
  else '_'

/-- The value of a character of the alphabet. -/
def value? (c : Char) : Option Nat :=
  let n := c.toNat
  if 65 ≤ n ∧ n ≤ 90 then some (n - 65)
  else if 97 ≤ n ∧ n ≤ 122 then some (n - 71)
  else if 48 ≤ n ∧ n ≤ 57 then some (n + 4)
  else if n = 45 then some 62
  else if n = 95 then some 63
  else none

/-- The written form of bytes. -/
def encode : Bytes → List Char
  | a :: b :: c :: rest =>
      let n := (a.toNat * 256 + b.toNat) * 256 + c.toNat
      character (n / 262144) :: character (n / 4096 % 64) :: character (n / 64 % 64) ::
        character (n % 64) :: encode rest
  | [a, b] =>
      let n := (a.toNat * 256 + b.toNat) * 4
      [character (n / 4096), character (n / 64 % 64), character (n % 64)]
  | [a] =>
      let n := a.toNat * 16
      [character (n / 64), character (n % 64)]
  | [] => []

/-- The bytes that the values of characters make up. -/
def assemble : List Nat → Option Bytes
  | a :: b :: c :: d :: rest =>
      let n := ((a * 64 + b) * 64 + c) * 64 + d
      (assemble rest).map fun bytes =>
        UInt8.ofNat (n / 65536) :: UInt8.ofNat (n / 256 % 256) :: UInt8.ofNat (n % 256) :: bytes
  | [a, b, c] =>
      let n := (a * 64 + b) * 64 + c
      if n % 4 = 0 then some [UInt8.ofNat (n / 1024), UInt8.ofNat (n / 4 % 256)] else none
  | [a, b] =>
      let n := a * 64 + b
      if n % 16 = 0 then some [UInt8.ofNat (n / 16)] else none
  | [_] => none
  | [] => some []

/-- The bytes that a text is the written form of. -/
def decode? (cs : List Char) : Option Bytes :=
  (cs.mapM value?).bind assemble

/-- The character of a value is read as that value. -/
theorem value?_character : ∀ v < 64, value? (character v) = some v := by
  decide

end Turnstile.Text.Base64Url
