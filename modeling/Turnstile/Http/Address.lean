import Turnstile.Text.Decimal
import Turnstile.Text.Parts

/-!
# Network addresses

The address of a peer is read from the form `address:port`, with an address of
version 6 in brackets, and written in its canonical form: the longest run of
at least two zero groups is shortened to two colons, the first one of several,
and an address of version 4 inside one of version 6 is written with points.
-/

namespace Turnstile.Http

/-- A network address. -/
inductive Address where
  | v4 (octets : List Nat)
  | v6 (groups : List Nat)
  deriving DecidableEq

namespace Address

open Text (join splitOn)
open Text.Decimal (digits value?)

/-! ## Writing -/

/-- The lower-case hexadecimal digits of a number. -/
def hexDigits (n : Nat) : List Char :=
  if n < 16 then [hexDigit n] else hexDigits (n / 16) ++ [hexDigit (n % 16)]
termination_by n
decreasing_by omega
where
  /-- One hexadecimal digit. -/
  hexDigit (n : Nat) : Char := if n < 10 then Char.ofNat (48 + n) else Char.ofNat (87 + n)

/-- The first of the longest runs of zeros, by its start and length.  `place` is
where it looks and `best` the run found so far. -/
def longestZeros (place : Nat) (best : Nat × Nat) : List Nat → Nat × Nat
  | [] => best
  | g :: rest =>
      let run := ((g :: rest).takeWhile (· == 0)).length
      longestZeros (place + 1) (if best.2 < run then (place, run) else best) rest

/-- The canonical form of an address of version 6. -/
def renderV6 (groups : List Nat) : List Char :=
  match groups with
  | [0, 0, 0, 0, 0, 0xFFFF, a, b] =>
      "::ffff:".toList ++ join '.' ([a / 256, a % 256, b / 256, b % 256].map digits)
  | _ =>
      let zeros := longestZeros 0 (0, 1) groups
      if zeros.2 < 2 then join ':' (groups.map hexDigits)
      else
        join ':' ((groups.take zeros.1).map hexDigits) ++ [':', ':'] ++
          join ':' ((groups.drop (zeros.1 + zeros.2)).map hexDigits)

/-- The canonical form of an address. -/
def render : Address → String
  | v4 octets => String.ofList (join '.' (octets.map digits))
  | v6 groups => String.ofList (renderV6 groups)

/-! ## Reading -/

/-- Four decimal numbers below 256 with points between them and without
leading zeros. -/
def readV4? (cs : List Char) : Option (List Nat) :=
  let octet (part : List Char) : Option Nat :=
    if part.length ≤ 3 ∧ (part.length = 1 ∨ part.head? ≠ some '0') then
      (value? part).filter (· < 256)
    else none
  let parts := splitOn '.' cs
  if parts.length = 4 then parts.mapM octet else none

/-- The value of a hexadecimal digit. -/
def hexValue? (c : Char) : Option Nat :=
  let n := c.toNat
  if 48 ≤ n ∧ n ≤ 57 then some (n - 48)
  else if 97 ≤ n ∧ n ≤ 102 then some (n - 87)
  else if 65 ≤ n ∧ n ≤ 70 then some (n - 55)
  else none

/-- One to four hexadecimal digits. -/
def readGroup? (part : List Char) : Option Nat :=
  if part.isEmpty ∨ 4 < part.length then none
  else (part.mapM hexValue?).map fun values => values.foldl (fun n v => n * 16 + v) 0

/-- Groups with colons between them; an address of version 4 may stand for the
last two. -/
def readGroups? (cs : List Char) : Option (List Nat) :=
  if cs.isEmpty then some []
  else
    let parts := splitOn ':' cs
    match parts.reverse with
    | [] => none
    | last :: before =>
        match readV4? last with
        | some [a, b, c, d] =>
            (before.reverse.mapM readGroup?).map (· ++ [a * 256 + b, c * 256 + d])
        | _ => parts.mapM readGroup?

/-- The parts before and after the first two colons in a row. -/
def splitGap? : List Char → Option (List Char × List Char)
  | ':' :: ':' :: rest => some ([], rest)
  | c :: rest => (splitGap? rest).map fun p => (c :: p.1, p.2)
  | [] => none

/-- The eight groups of an address of version 6. -/
def readV6? (cs : List Char) : Option (List Nat) :=
  match splitGap? cs with
  | none => (readGroups? cs).filter (·.length = 8)
  | some (front, back) => do
      let front ← readGroups? front
      let back ← readGroups? back
      if front.length + back.length ≤ 7 then
        some (front ++ List.replicate (8 - front.length - back.length) 0 ++ back)
      else none

/-- The address of a peer given as address and port. -/
def ofPeer? (text : String) : Option Address :=
  match text.toList with
  | '[' :: rest =>
      let inside := rest.takeWhile (· != ']')
      (readV6? (inside.takeWhile (· != '%'))).map v6
  | cs => (readV4? (cs.takeWhile (· != ':'))).map v4

end Address

end Turnstile.Http
