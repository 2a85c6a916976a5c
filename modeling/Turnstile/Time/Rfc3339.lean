import Turnstile.Text.Blank
import Turnstile.Time.Calendar
import Turnstile.Time.Timestamp

/-!
# Written instants

An instant is written as RFC 3339 has it, in UTC with the letter Z and with 0,
3, 6 or 9 digits after the second, the fewest that lose nothing.  Years outside
0 to 9999 carry a sign.

Reading is more liberal than writing: any offset from UTC is understood, a
space may stand for the letter T, numbers need not be padded, and blanks may
stand around the numbers.
-/

namespace Turnstile.Rfc3339

open Text.Decimal (digits padded isDigit valueFrom)

/-! ## Writing -/

/-- A year in four digits, or with a sign in at least four. -/
def renderYear (year : Int) : List Char :=
  if 0 ≤ year ∧ year ≤ 9999 then padded 4 year.toNat
  else (if year < 0 then '-' else '+') :: padded 4 year.natAbs

/-- The part of a second after the point, in the fewest groups of three. -/
def renderFraction (nanos : Nat) : List Char :=
  if nanos = 0 then []
  else if nanos % 1000000 = 0 then '.' :: padded 3 (nanos / 1000000)
  else if nanos % 1000 = 0 then '.' :: padded 6 (nanos / 1000)
  else '.' :: padded 9 nanos

/-- The characters of a written instant. -/
def renderChars (t : Timestamp) : List Char :=
  let date := Date.ofDayNumber (t.seconds / 86400)
  let ofDay := (t.seconds % 86400).toNat
  let leap := if t.nanos < 1_000_000_000 then 0 else 1
  renderYear date.year ++ '-' :: padded 2 date.month ++ '-' :: padded 2 date.day ++
    'T' :: padded 2 (ofDay / 3600) ++ ':' :: padded 2 (ofDay / 60 % 60) ++
    ':' :: padded 2 (ofDay % 60 + leap) ++ renderFraction (t.nanos - leap * 1_000_000_000) ++ ['Z']

/-- The written form of an instant. -/
def render (t : Timestamp) : String :=
  String.ofList (renderChars t)

/-! ## Reading -/

/-- At most `width` digits, and what follows them; at least one is needed. -/
def number? (width : Nat) (cs : List Char) : Option (Nat × List Char) :=
  let ds := (cs.take width).takeWhile isDigit
  if ds.isEmpty then none else some (valueFrom 0 ds, cs.drop ds.length)

/-- One or two digits after blanks. -/
def twoDigits? (cs : List Char) : Option (Nat × List Char) :=
  number? 2 (Text.trimLeft cs)

/-- A year after blanks: any number of digits after a sign, else at most four. -/
def year? (cs : List Char) : Option (Int × List Char) :=
  match Text.trimLeft cs with
  | '-' :: rest => (number? rest.length rest).map fun r => (-(r.1 : Int), r.2)
  | '+' :: rest => (number? rest.length rest).map fun r => ((r.1 : Int), r.2)
  | rest => (number? 4 rest).map fun r => ((r.1 : Int), r.2)

/-- The given character after blanks. -/
def mark? (c : Char) (cs : List Char) : Option (List Char) :=
  match Text.trimLeft cs with
  | [] => none
  | x :: rest => if x = c then some rest else none

/-- The nanoseconds of a fraction after a point, and what follows; digits
beyond the ninth are dropped. -/
def fraction? (cs : List Char) : Option (Nat × List Char) :=
  match cs with
  | '.' :: rest =>
      let ds := rest.takeWhile isDigit
      if ds.isEmpty then none
      else
        let kept := ds.take 9
        some (valueFrom 0 kept * Nat.pow 10 (9 - kept.length), rest.drop ds.length)
  | _ => some (0, cs)

/-- The minutes of an offset of exactly two digits, and what follows. -/
def offsetDigits? : List Char → Option (Nat × List Char)
  | a :: b :: rest =>
      if isDigit a && isDigit b then some (valueFrom 0 [a, b], rest) else none
  | _ => none

/-- An offset from UTC in seconds, and what follows it. -/
def offset? (cs : List Char) : Option (Int × List Char) :=
  let signed (sign : Int) (rest : List Char) : Option (Int × List Char) := do
    let (hours, rest) ← offsetDigits? rest
    let (minutes, rest) ← offsetDigits? (rest.dropWhile fun c => c == ':' || Text.isBlank c)
    if minutes < 60 then some (sign * (hours * 3600 + minutes * 60 : Nat), rest) else none
  match cs with
  | 'Z' :: rest => some (0, rest)
  | 'z' :: rest => some (0, rest)
  | '+' :: rest => signed 1 rest
  | '-' :: rest => signed (-1) rest
  | '−' :: rest => signed (-1) rest
  | a :: b :: c :: rest =>
      if [a, b, c].map Char.toUpper = ['U', 'T', 'C'] then some (0, rest) else none
  | _ => none

/-- The years that the calendar reaches. -/
def minYear : Int := -262143

/-- The last year that the calendar reaches. -/
def maxYear : Int := 262142

/-- The instant of a date and a time of day at an offset from UTC, if there is
one. -/
def instant? (date : Date) (hour minute second nanos : Nat) (offset : Int) : Option Timestamp :=
  if minYear ≤ date.year ∧ date.year ≤ maxYear ∧ date.isValid ∧ hour ≤ 23 ∧ minute ≤ 59 ∧
      second ≤ 60 ∧ -86400 < offset ∧ offset < 86400 then
    let leap := if second = 60 then 1 else 0
    let seconds :=
      date.dayNumber * 86400 + (hour * 3600 + minute * 60 + (second - leap) : Nat) - offset
    if Timestamp.earliest.seconds ≤ seconds ∧ seconds ≤ Timestamp.latest.seconds then
      some ⟨seconds, nanos + leap * 1_000_000_000⟩
    else none
  else none

/-- The instant that the characters are a written form of. -/
def readChars? (cs : List Char) : Option Timestamp := do
  let (year, cs) ← year? cs
  let cs ← mark? '-' cs
  let (month, cs) ← twoDigits? cs
  let cs ← mark? '-' cs
  let (day, cs) ← twoDigits? cs
  let cs ← match cs with
    | 'T' :: rest => some rest
    | 't' :: rest => some rest
    | ' ' :: rest => some rest
    | _ => none
  let (hour, cs) ← twoDigits? cs
  let cs ← mark? ':' cs
  let (minute, cs) ← twoDigits? cs
  let cs ← mark? ':' cs
  let (second, cs) ← twoDigits? cs
  let (nanos, cs) ← fraction? cs
  let (offset, cs) ← offset? (Text.trimLeft cs)
  if (Text.trimLeft cs).isEmpty then
    instant? ⟨year, month, day⟩ hour minute second nanos offset
  else none

/-- The instant that a text is a written form of. -/
def read? (text : String) : Option Timestamp :=
  readChars? text.toList

end Turnstile.Rfc3339
