import Turnstile.Bytes
import Turnstile.Text.Binary64

/-!
# Tokens of JSON text

Reading of the smallest parts of a JSON text: blanks, literal names, numbers
and strings.  A reader takes the bytes that are left and gives back what it
read with the bytes that remain.  Where it meets a fault it says which bytes
were left then, so that a reader that makes do without the value can go on
from there.
-/

namespace Turnstile.Json

/-- Why a text cannot be read as the value that is wanted. -/
inductive Fault where
  /-- The bytes are no JSON text, or end too early. -/
  | malformed
  /-- The bytes are JSON text so far, but of another shape than wanted. -/
  | mismatch
  deriving DecidableEq

/-- Where a reader gave up, and why. -/
structure Stop where
  fault : Fault
  /-- The bytes that were left. -/
  rest : Bytes
  deriving DecidableEq

/-- What a reader answers: what it read and the bytes that remain. -/
abbrev Read (α : Type) := Except Stop (α × Bytes)

/-- The reader gives up before the given bytes, which are no JSON text. -/
def malformed {α : Type} (rest : Bytes) : Read α := .error ⟨.malformed, rest⟩

/-- The reader gives up before the given bytes, since the shape is another. -/
def mismatch {α : Type} (rest : Bytes) : Read α := .error ⟨.mismatch, rest⟩

/-- The bytes that a reader left. -/
def restOf {α : Type} : Read α → Bytes
  | .ok (_, rest) => rest
  | .error stop => stop.rest

/-- The blanks that may stand between tokens. -/
def isBlank (b : UInt8) : Bool :=
  b == 0x20 || b == 0x0A || b == 0x09 || b == 0x0D

/-- The bytes from the first one that is not blank. -/
def skipBlanks (input : Bytes) : Bytes :=
  input.dropWhile isBlank

/-- Whether a byte is a decimal digit. -/
def isDigit (b : UInt8) : Bool :=
  0x30 ≤ b && b ≤ 0x39

/-- The given bytes at the front of the input.  A byte that differs is passed
over. -/
def expect : Bytes → Bytes → Read Unit
  | [], input => .ok ((), input)
  | _ :: _, [] => malformed []
  | wanted :: more, b :: rest => if b == wanted then expect more rest else malformed rest

/-! ## Numbers -/

/-- A number as it is held after reading. -/
inductive Number where
  /-- A whole number from 0 to 2^64 - 1. -/
  | natural (n : Nat)
  /-- A whole number from -2^63 to -1, by its distance from zero. -/
  | negative (n : Nat)
  /-- Any other number, by its sign and its distance from zero. -/
  | real (isNegative : Bool) (magnitude : Text.Binary64.Dyadic)
  deriving DecidableEq

/-- The largest significand that is held; further digits are dropped. -/
def maxSignificand : Nat := 18_446_744_073_709_551_615

/-- The value of a digit. -/
def digitValue (b : UInt8) : Nat := b.toNat - 0x30

/-- Reads digits of a whole part while the significand has room. -/
def readWhole (significand : Nat) : Bytes → Nat × Bytes
  | [] => (significand, [])
  | b :: rest =>
      if isDigit b && significand * 10 + digitValue b ≤ maxSignificand then
        readWhole (significand * 10 + digitValue b) rest
      else (significand, b :: rest)

/-- Reads digits after the point while the significand has room, counting
them. -/
def readTenths (significand count : Nat) : Bytes → Nat × Nat × Bytes
  | [] => (significand, count, [])
  | b :: rest =>
      if isDigit b && significand * 10 + digitValue b ≤ maxSignificand then
        readTenths (significand * 10 + digitValue b) (count + 1) rest
      else (significand, count, b :: rest)

/-- A number that is not whole, or too large to be held as one: refused where
it is beyond the finite ones. -/
def real (isNegative : Bool) (significand : Nat) (exponent : Int) (rest : Bytes) : Read Number :=
  match Text.Binary64.scaled? significand exponent with
  | some magnitude => .ok (.real isNegative magnitude, rest)
  | none => malformed rest

/-- The exponents that a number may be written with. -/
def maxExponent : Nat := 2_147_483_647

/-- Reads the digits of an exponent.  Those of one that is too large are read
only as far as that shows, and it has no value then. -/
def readExponentDigits (n : Nat) : Bytes → Option Nat × Bytes
  | [] => (some n, [])
  | b :: rest =>
      if !isDigit b then (some n, b :: rest)
      else if n * 10 + digitValue b ≤ maxExponent then
        readExponentDigits (n * 10 + digitValue b) rest
      else (none, rest)

/-- Reads an exponent after its sign. -/
def readMagnitude (isNegative : Bool) (significand : Nat) (exponent : Int) (isSmall : Bool)
    (input : Bytes) : Read Number :=
  match input with
  | [] => malformed []
  | b :: rest =>
      if !isDigit b then malformed rest
      else
        match readExponentDigits 0 input with
        | (some n, rest) =>
            real isNegative significand (if isSmall then exponent - n else exponent + n) rest
        | (none, rest) =>
            if significand ≠ 0 ∧ isSmall = false then malformed rest
            else real isNegative 0 0 (rest.dropWhile isDigit)

/-- Reads the part of a number after the letter E. -/
def readExponent (isNegative : Bool) (significand : Nat) (exponent : Int) (input : Bytes) :
    Read Number :=
  match input with
  | 0x2B :: rest => readMagnitude isNegative significand exponent false rest
  | 0x2D :: rest => readMagnitude isNegative significand exponent true rest
  | rest => readMagnitude isNegative significand exponent false rest

/-- Reads the part of a number that may follow its digits. -/
def readScale (isNegative : Bool) (significand : Nat) (exponent : Int) (input : Bytes) :
    Read Number :=
  match input with
  | 0x65 :: rest => readExponent isNegative significand exponent rest
  | 0x45 :: rest => readExponent isNegative significand exponent rest
  | rest => real isNegative significand exponent rest

/-- Reads the part of a number after the point. -/
def readFraction (isNegative : Bool) (significand : Nat) (exponent : Int) (input : Bytes) :
    Read Number :=
  match input with
  | [] => malformed []
  | b :: _ =>
      if isDigit b then
        let part := readTenths significand 0 input
        readScale isNegative part.1 (exponent - part.2.1) (part.2.2.dropWhile isDigit)
      else malformed input

/-- Whether a number goes on after its whole part. -/
def goesOn : Bytes → Bool
  | 0x2E :: _ => true
  | 0x65 :: _ => true
  | 0x45 :: _ => true
  | _ => false

/-- Reads the part of a number after a whole part that is held completely. -/
def readAfterWhole (isNegative : Bool) (n : Nat) (input : Bytes) : Read Number :=
  match input with
  | 0x2E :: rest => readFraction isNegative n 0 rest
  | rest =>
      if goesOn rest then readScale isNegative n 0 rest
      else if !isNegative then .ok (.natural n, rest)
      else if n = 0 ∨ 9_223_372_036_854_775_808 < n then real true n 0 rest
      else .ok (.negative n, rest)

/-- Reads the part of a number from the first digit on for which the
significand has no room. -/
def readLong (isNegative : Bool) (significand : Nat) (input : Bytes) : Read Number :=
  let dropped := input.takeWhile isDigit
  match input.drop dropped.length with
  | 0x2E :: rest => readFraction isNegative significand dropped.length rest
  | rest => readScale isNegative significand dropped.length rest

/-- Reads a number after its sign. -/
def readUnsigned (isNegative : Bool) (input : Bytes) : Read Number :=
  match input with
  | [] => malformed []
  | b :: rest =>
      if b == 0x30 then
        if (rest.head?.map isDigit).getD false then malformed rest
        else readAfterWhole isNegative 0 rest
      else if isDigit b then
        let part := readWhole 0 input
        if (part.2.head?.map isDigit).getD false then readLong isNegative part.1 part.2
        else readAfterWhole isNegative part.1 part.2
      else malformed rest

/-- Reads a number. -/
def readNumber : Bytes → Read Number
  | 0x2D :: rest => readUnsigned true rest
  | input => readUnsigned false input

/-- Passes over digits, of which there is one at least. -/
def skipDigits (input : Bytes) : Read Unit :=
  match input with
  | [] => malformed []
  | b :: _ => if isDigit b then .ok ((), input.dropWhile isDigit) else malformed input

/-- Passes over the part of a number that may follow its digits. -/
def skipScale (input : Bytes) : Read Unit :=
  let exponent (input : Bytes) : Read Unit := match input with
    | 0x2B :: rest => skipDigits rest
    | 0x2D :: rest => skipDigits rest
    | rest => skipDigits rest
  match input with
  | 0x65 :: rest => exponent rest
  | 0x45 :: rest => exponent rest
  | rest => .ok ((), rest)

/-- Passes over the part of a number after its whole part. -/
def skipFraction (input : Bytes) : Read Unit :=
  match input with
  | 0x2E :: rest =>
      match skipDigits rest with
      | .error stop => .error stop
      | .ok ((), rest) => skipScale rest
  | rest => skipScale rest

/-- Passes over a number of any size. -/
def skipNumber (input : Bytes) : Read Unit :=
  let unsigned : Bytes := match input with
    | 0x2D :: rest => rest
    | rest => rest
  match unsigned with
  | [] => malformed []
  | b :: rest =>
      if b == 0x30 then
        if (rest.head?.map isDigit).getD false then malformed rest else skipFraction rest
      else if isDigit b then skipFraction (rest.dropWhile isDigit)
      else malformed rest

/-! ## Strings -/

/-- The value of a hexadecimal digit. -/
def hexValue? (b : UInt8) : Option Nat :=
  if 0x30 ≤ b && b ≤ 0x39 then some (b.toNat - 0x30)
  else if 0x61 ≤ b && b ≤ 0x66 then some (b.toNat - 0x57)
  else if 0x41 ≤ b && b ≤ 0x46 then some (b.toNat - 0x37)
  else none

/-- The value of four hexadecimal digits. -/
def hex4? (a b c d : UInt8) : Option Nat := do
  let a ← hexValue? a
  let b ← hexValue? b
  let c ← hexValue? c
  let d ← hexValue? d
  some (((a * 16 + b) * 16 + c) * 16 + d)

/-- The byte that a one-letter escape stands for. -/
def escapedByte? (b : UInt8) : Option UInt8 :=
  if b == 0x22 then some 0x22
  else if b == 0x5C then some 0x5C
  else if b == 0x2F then some 0x2F
  else if b == 0x62 then some 0x08
  else if b == 0x66 then some 0x0C
  else if b == 0x6E then some 0x0A
  else if b == 0x72 then some 0x0D
  else if b == 0x74 then some 0x09
  else none

/-- The UTF-8 bytes of a code point that is no surrogate. -/
def codePointBytes (n : Nat) : Bytes :=
  Bytes.ofText (String.singleton (Char.ofNat n))

/-- Whether a number is the first half of a code point in UTF-16. -/
def isHighSurrogate (n : Nat) : Bool := 0xD800 ≤ n && n ≤ 0xDBFF

/-- Whether a number is the second half of a code point in UTF-16. -/
def isLowSurrogate (n : Nat) : Bool := 0xDC00 ≤ n && n ≤ 0xDFFF

/-- The code point of two halves. -/
def pairedCodePoint (high low : Nat) : Nat :=
  (high - 0xD800) * 0x400 + (low - 0xDC00) + 0x10000

/-- What is left where a first half is not followed by the escape of another
number.  Up to the byte that shows it everything is passed over. -/
def afterLoneSurrogate : Bytes → Bytes
  | [] => []
  | b :: rest =>
      if b != 0x5C then rest
      else
        match rest with
        | [] => []
        | e :: rest => if e == 0x75 then [] else rest

/-- Reads the content of a string up to its closing quote.  `content` holds
what was read so far, the last byte first. -/
def readContent (content : Bytes) : Bytes → Read Bytes
  | [] => malformed []
  | b :: rest =>
      if b == 0x22 then .ok (content.reverse, rest)
      else if b < 0x20 then malformed rest
      else if b != 0x5C then readContent (b :: content) rest
      else
        match rest with
        | [] => malformed []
        | e :: rest =>
            if e != 0x75 then
              match escapedByte? e with
              | some byte => readContent (byte :: content) rest
              | none => malformed rest
            else
              match rest with
              | a :: b :: c :: d :: rest =>
                  match hex4? a b c d with
                  | none => malformed rest
                  | some n =>
                      if isLowSurrogate n then malformed rest
                      else if isHighSurrogate n then
                        match rest with
                        | 0x5C :: 0x75 :: a :: b :: c :: d :: rest =>
                            match hex4? a b c d with
                            | none => malformed rest
                            | some m =>
                                if isLowSurrogate m then
                                  readContent
                                    ((codePointBytes (pairedCodePoint n m)).reverse ++ content) rest
                                else malformed rest
                        | rest => malformed (afterLoneSurrogate rest)
                      else readContent ((codePointBytes n).reverse ++ content) rest
              | _ => malformed []

/-- Reads a string after its opening quote. -/
def readString (input : Bytes) : Read String :=
  match readContent [] input with
  | .error stop => .error stop
  | .ok (content, rest) =>
      match Bytes.text? content with
      | some text => .ok (text, rest)
      | none => malformed rest

/-- Passes over a string after its opening quote.  Its bytes need not be UTF-8
and its escapes need not form characters. -/
def skipString : Bytes → Read Unit
  | [] => malformed []
  | b :: rest =>
      if b == 0x22 then .ok ((), rest)
      else if b < 0x20 then malformed rest
      else if b != 0x5C then skipString rest
      else
        match rest with
        | [] => malformed []
        | e :: rest =>
            if e != 0x75 then
              if (escapedByte? e).isSome then skipString rest else malformed rest
            else
              match rest with
              | a :: b :: c :: d :: rest =>
                  if (hex4? a b c d).isSome then skipString rest else malformed rest
              | _ => malformed []

end Turnstile.Json
