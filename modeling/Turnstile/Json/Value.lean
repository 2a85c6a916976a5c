import Turnstile.Json.Reader

/-!
# JSON values

A value of any shape, for members whose shape is only judged after they were
read: a text that is one of several forms, or an object whose members decide
which others it needs.  The members of an object keep their order and may occur
more than once.
-/

namespace Turnstile.Json

/-- A JSON value. -/
inductive Value where
  | null
  | boolean (b : Bool)
  | number (n : Number)
  | text (s : String)
  | array (items : List Value)
  | object (members : List (String × Value))

namespace Value

/-- The text that a value is. -/
def text? : Value → Option String
  | .text s => some s
  | _ => none

/-- Whether a value is a text. -/
def isText (v : Value) : Bool := v.text?.isSome

/-- Whether a value is an array of texts. -/
def isTexts : Value → Bool
  | .array items => items.all isText
  | _ => false

/-- Whether a value is `null`. -/
def isNull : Value → Bool
  | .null => true
  | _ => false

/-- Whether a value is an object without members. -/
def isEmptyObject : Value → Bool
  | .object members => members.isEmpty
  | _ => false

/-- The name that a value chooses, and what it says of it: a text chooses
itself, an object with one member the name of that. -/
def choice? : Value → Option (String × Option Value)
  | .text s => some (s, none)
  | .object [(name, v)] => some (name, some v)
  | _ => none

end Value

/-- Reads one member of an object of any shape.  `members` holds those read so
far, the last one first. -/
def readAnyMember (value : Bytes → Read Value) (members : List (String × Value)) (name : String)
    (input : Bytes) : Read (List (String × Value)) :=
  (readMemberValue value input).map fun r => ((name, r.1) :: members, r.2)

/-- Reads the members of an object after its opening brace, and passes over the
closing brace. -/
def readAnyMembers (value : Bytes → Read Value) (input : Bytes) : Read (List (String × Value)) :=
  readObject [] (readAnyMember value) (fun members => some members.reverse) input

/-- Reads a value in which at most `depth` brackets are open at once. -/
def readValue (depth : Nat) (input : Bytes) : Read Value :=
  match skipBlanks input with
  | [] => malformed []
  | b :: rest =>
      if b == 0x6E then (expect (Bytes.ofText "ull") rest).map fun r => (.null, r.2)
      else if b == 0x74 then (expect (Bytes.ofText "rue") rest).map fun r => (.boolean true, r.2)
      else if b == 0x66 then (expect (Bytes.ofText "alse") rest).map fun r => (.boolean false, r.2)
      else if b == 0x2D || isDigit b then
        (readNumber (b :: rest)).map fun r => (.number r.1, r.2)
      else if b == 0x22 then (readString rest).map fun r => (.text r.1, r.2)
      else if b == 0x5B then
        match depth with
        | 0 => malformed (b :: rest)
        | depth + 1 =>
            (readArray (readValue depth) (b :: rest)).map fun r => (.array r.1, r.2)
      else if b == 0x7B then
        match depth with
        | 0 => malformed (b :: rest)
        | depth + 1 =>
            (readAnyMembers (readValue depth) rest).map fun r => (.object r.1, r.2)
      else malformed (b :: rest)

end Turnstile.Json
