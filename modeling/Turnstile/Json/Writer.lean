import Turnstile.Bytes
import Turnstile.Text.Decimal

/-!
# Writing JSON text

The written forms of texts, numbers, arrays and members, without blanks.
-/

namespace Turnstile.Json

/-- The bytes of ASCII characters. -/
def ascii (cs : List Char) : Bytes :=
  cs.map fun c => UInt8.ofNat c.toNat

/-- The written form of one byte of a string: a quote, a backslash and the
control characters are escaped. -/
def escapeByte (b : UInt8) : Bytes :=
  if b == 0x22 then [0x5C, 0x22]
  else if b == 0x5C then [0x5C, 0x5C]
  else if b == 0x08 then [0x5C, 0x62]
  else if b == 0x0C then [0x5C, 0x66]
  else if b == 0x0A then [0x5C, 0x6E]
  else if b == 0x0D then [0x5C, 0x72]
  else if b == 0x09 then [0x5C, 0x74]
  else if b < 0x20 then
    [0x5C, 0x75, 0x30, 0x30] ++
      ascii [Bytes.hexDigit (b.toNat / 16), Bytes.hexDigit (b.toNat % 16)]
  else [b]

/-- A text in quotes. -/
def text (t : String) : Bytes :=
  0x22 :: ((Bytes.ofText t).flatMap escapeByte ++ [0x22])

/-- A natural number. -/
def natural (n : Nat) : Bytes :=
  ascii (Text.Decimal.digits n)

/-- A whole number. -/
def integer (n : Int) : Bytes :=
  ascii (Text.Decimal.signed n)

/-- A text in quotes, or `null`. -/
def optionalText : Option String → Bytes
  | some t => text t
  | none => ascii ['n', 'u', 'l', 'l']

/-- An array of written values. -/
def array (items : List Bytes) : Bytes :=
  0x5B :: ((items.intersperse [0x2C]).flatten ++ [0x5D])

/-- An object of names and written values. -/
def object (members : List (String × Bytes)) : Bytes :=
  let written := members.map fun m => text m.1 ++ 0x3A :: m.2
  0x7B :: ((written.intersperse [0x2C]).flatten ++ [0x7D])

end Turnstile.Json
