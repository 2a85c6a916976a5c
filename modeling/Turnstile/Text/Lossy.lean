import Turnstile.Bytes

/-!
# Reading bytes that may not be UTF-8

Bytes that are to be shown in a log line become text in any case: each longest
run of bytes that begins a character but does not complete it, and each byte
that begins none, is shown as U+FFFD.
-/

namespace Turnstile.Text

/-- The replacement character. -/
def replacement : Char := Char.ofNat 0xFFFD

/-- A continuation byte. -/
def isContinuation (b : UInt8) : Bool :=
  0x80 ≤ b && b ≤ 0xBF

/-- The bytes that may follow `lead` in second place. -/
def allowsSecond (lead second : UInt8) : Bool :=
  if lead == 0xE0 then 0xA0 ≤ second && second ≤ 0xBF
  else if lead == 0xED then 0x80 ≤ second && second ≤ 0x9F
  else if lead == 0xF0 then 0x90 ≤ second && second ≤ 0xBF
  else if lead == 0xF4 then 0x80 ≤ second && second ≤ 0x8F
  else isContinuation second

/-- How many bytes a character takes whose first byte is `lead`; zero for a
byte that begins no character. -/
def sequenceLength (lead : UInt8) : Nat :=
  if lead < 0x80 then 1
  else if 0xC2 ≤ lead && lead ≤ 0xDF then 2
  else if 0xE0 ≤ lead && lead ≤ 0xEF then 3
  else if 0xF0 ≤ lead && lead ≤ 0xF4 then 4
  else 0

/-- The character with the given continuation bits after the bits of its lead. -/
def assemble (leadBits : Nat) (rest : List UInt8) : Char :=
  Char.ofNat (rest.foldl (fun n b => n * 64 + (b.toNat - 0x80)) leadBits)

/-- The first character shown for `lead :: rest`, and the number of bytes of
`rest` that it takes. -/
def firstShown (lead : UInt8) (rest : Bytes) : Char × Nat :=
  match sequenceLength lead, rest with
  | 1, _ => (Char.ofNat lead.toNat, 0)
  | 2, b :: _ =>
      if allowsSecond lead b then (assemble (lead.toNat - 0xC0) [b], 1) else (replacement, 0)
  | 3, b :: c :: _ =>
      if allowsSecond lead b then
        if isContinuation c then (assemble (lead.toNat - 0xE0) [b, c], 2) else (replacement, 1)
      else (replacement, 0)
  | 3, [b] => (replacement, if allowsSecond lead b then 1 else 0)
  | 4, b :: c :: d :: _ =>
      if allowsSecond lead b then
        if isContinuation c then
          if isContinuation d then (assemble (lead.toNat - 0xF0) [b, c, d], 3)
          else (replacement, 2)
        else (replacement, 1)
      else (replacement, 0)
  | 4, [b, c] =>
      (replacement,
        if allowsSecond lead b then if isContinuation c then 2 else 1 else 0)
  | 4, [b] => (replacement, if allowsSecond lead b then 1 else 0)
  | _, _ => (replacement, 0)

/-- `shown` collects the characters shown for the bytes, the last one first. -/
def showFrom (shown : List Char) : Bytes → List Char
  | [] => shown.reverse
  | lead :: rest =>
      let first := firstShown lead rest
      showFrom (first.1 :: shown) (rest.drop first.2)
termination_by bytes => bytes.length
decreasing_by
  simp only [List.length_drop, List.length_cons]
  omega

/-- The text shown for the bytes, U+FFFD standing for what is not UTF-8. -/
def ofBytesLossy (bytes : Bytes) : String :=
  match Bytes.text? bytes with
  | some text => text
  | none => String.ofList (showFrom [] bytes)

end Turnstile.Text
