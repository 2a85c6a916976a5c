import Turnstile.Json.Token

/-!
# Typed reading of JSON text

Readers of the shapes that the library wants from a JSON text: a whole number
within bounds, a text, an option, an array, a tuple and an object with known
fields.  They go through the text once from the left, so that the fault they
report is the first one: `malformed` where the text stops being JSON,
`mismatch` where its shape stops being the wanted one.

After a fault inside a bracket the closing of that bracket is still looked for,
which only changes what is left.  Repeated readers take a list as `fuel` that is
no shorter than what they may read; every repetition takes a byte of it.
-/

namespace Turnstile.Json

/-! ## Shapes that do not match -/

/-- The fault of a reader for a value of another shape, where the reader went on
to the end of that value. -/
def after {α β : Type} : Read α → Read β
  | .ok (_, rest) => mismatch rest
  | .error stop => .error stop

/-- The fault of a value that begins at the given bytes where another shape is
wanted.  A number, name or string is read to its end first. -/
def mismatchAt {α : Type} (input : Bytes) : Read α :=
  match input with
  | [] => malformed []
  | b :: rest =>
      if b == 0x6E then after (expect (Bytes.ofText "ull") rest)
      else if b == 0x74 then after (expect (Bytes.ofText "rue") rest)
      else if b == 0x66 then after (expect (Bytes.ofText "alse") rest)
      else if b == 0x2D || isDigit b then after (readNumber input)
      else if b == 0x22 then after (readString rest)
      else if b == 0x5B || b == 0x7B then mismatch input
      else malformed input

/-! ## Values of any shape -/

/-- Whether an open bracket is that of an array or of an object. -/
inductive Bracket where
  | array
  | object
  deriving DecidableEq

/-- Passes over the colon between a key and its value. -/
def skipColon (input : Bytes) : Read Unit :=
  match skipBlanks input with
  | 0x3A :: rest => .ok ((), rest)
  | rest => malformed rest

/-- Passes over the key of a member and the colon after it. -/
def skipKey (input : Bytes) : Read Unit :=
  match skipBlanks input with
  | 0x22 :: rest =>
      match skipString rest with
      | .error stop => .error stop
      | .ok ((), rest) => skipColon rest
  | rest => malformed rest

/-- Whether a reader that passes over values stands before a value or after
one. -/
inductive Standing where
  | before
  | after
  deriving DecidableEq

/-- Passes over a value with all that it holds.  `stack` holds the open
brackets, the innermost first. -/
def skipNested (fuel : Bytes) (standing : Standing) (stack : List Bracket) (input : Bytes) :
    Read Unit :=
  match fuel with
  | [] => malformed []
  | _ :: fuel =>
      let passed (stack : List Bracket) (r : Read Unit) : Read Unit := match r with
        | .error stop => .error stop
        | .ok ((), rest) =>
            if stack.isEmpty then .ok ((), rest) else skipNested fuel .after stack rest
      let member (stack : List Bracket) (input : Bytes) : Read Unit := match skipKey input with
        | .error stop => .error stop
        | .ok ((), rest) => skipNested fuel .before stack rest
      match skipBlanks input with
      | [] => malformed []
      | b :: rest =>
          match standing, stack with
          | .before, stack =>
              if b == 0x6E then passed stack (expect (Bytes.ofText "ull") rest)
              else if b == 0x74 then passed stack (expect (Bytes.ofText "rue") rest)
              else if b == 0x66 then passed stack (expect (Bytes.ofText "alse") rest)
              else if b == 0x2D || isDigit b then passed stack (skipNumber (b :: rest))
              else if b == 0x22 then passed stack (skipString rest)
              else if b == 0x5B then
                match skipBlanks rest with
                | 0x5D :: rest => passed stack (.ok ((), rest))
                | rest => skipNested fuel .before (.array :: stack) rest
              else if b == 0x7B then
                match skipBlanks rest with
                | 0x7D :: rest => passed stack (.ok ((), rest))
                | rest => member (.object :: stack) rest
              else malformed (b :: rest)
          | .after, [] => malformed (b :: rest)
          | .after, .array :: outer =>
              if b == 0x5D then passed outer (.ok ((), rest))
              else if b == 0x2C then skipNested fuel .before (.array :: outer) rest
              else malformed (b :: rest)
          | .after, .object :: outer =>
              if b == 0x7D then passed outer (.ok ((), rest))
              else if b == 0x2C then member (.object :: outer) rest
              else malformed (b :: rest)

/-- Passes over a value of any shape. -/
def skipValue (input : Bytes) : Read Unit :=
  skipNested input .before [] input

/-! ## Scalars -/

/-- Reads a whole number between two bounds. -/
def readInteger (low high : Int) (input : Bytes) : Read Int :=
  let input := skipBlanks input
  match input with
  | [] => malformed []
  | b :: _ =>
      if b == 0x2D || isDigit b then
        match readNumber input with
        | .error stop => .error stop
        | .ok (.natural n, rest) =>
            if low ≤ n ∧ (n : Int) ≤ high then .ok (n, rest) else mismatch rest
        | .ok (.negative n, rest) =>
            if low ≤ -(n : Int) ∧ -(n : Int) ≤ high then .ok (-(n : Int), rest)
            else mismatch rest
        | .ok (.real _ _, rest) => mismatch rest
      else mismatchAt input

/-- Reads a text. -/
def readText (input : Bytes) : Read String :=
  match skipBlanks input with
  | 0x22 :: rest => readString rest
  | input => mismatchAt input

/-- Reads `null`. -/
def readNull (input : Bytes) : Read Unit :=
  match skipBlanks input with
  | 0x6E :: rest => expect (Bytes.ofText "ull") rest
  | input => mismatchAt input

/-- Reads `null` or a value. -/
def readOption {α : Type} (value : Bytes → Read α) (input : Bytes) : Read (Option α) :=
  match skipBlanks input with
  | 0x6E :: rest =>
      match expect (Bytes.ofText "ull") rest with
      | .error stop => .error stop
      | .ok ((), rest) => .ok (none, rest)
  | input =>
      match value input with
      | .error stop => .error stop
      | .ok (a, rest) => .ok (some a, rest)

/-- Reads a value that need not be of the wanted shape: where the reader of the
shape gives up, reading goes on. -/
def attempt {α : Type} (value : Bytes → Read α) (input : Bytes) : Read (Option α) :=
  match value input with
  | .error stop => .ok (none, stop.rest)
  | .ok (a, rest) => .ok (some a, rest)

/-! ## Brackets -/

/-- Closes a bracket after what was read in it, also where that met a fault,
which stays the one that is reported. -/
def closing {α : Type} (close : Bytes → Read Unit) : Read α → Read α
  | .error stop => .error ⟨stop.fault, restOf (close stop.rest)⟩
  | .ok (a, rest) =>
      match close rest with
      | .error stop => .error stop
      | .ok ((), rest) => .ok (a, rest)

/-- Passes over the closing bracket of an array.  A comma in its place is passed
over too. -/
def closeArray (input : Bytes) : Read Unit :=
  match skipBlanks input with
  | 0x5D :: rest => .ok ((), rest)
  | 0x2C :: rest => malformed rest
  | rest => malformed rest

/-- Passes over the closing brace of an object. -/
def closeObject (input : Bytes) : Read Unit :=
  match skipBlanks input with
  | 0x7D :: rest => .ok ((), rest)
  | rest => malformed rest

/-! ## Arrays -/

/-- Moves to the next item of an array, if there is one. -/
def nextItem (isFirst : Bool) (input : Bytes) : Read Bool :=
  match skipBlanks input with
  | [] => malformed []
  | b :: rest =>
      if b == 0x5D then .ok (false, b :: rest)
      else if isFirst then .ok (true, b :: rest)
      else if b == 0x2C then
        match skipBlanks rest with
        | [] => malformed []
        | c :: rest => if c == 0x5D then malformed (c :: rest) else .ok (true, c :: rest)
      else malformed (b :: rest)

/-- Reads the items of an array.  `items` holds those read so far, the last one
first. -/
def readItems {α : Type} (item : Bytes → Read α) (fuel : Bytes) (items : List α) (input : Bytes) :
    Read (List α) :=
  match fuel with
  | [] => malformed []
  | _ :: fuel =>
      match nextItem items.isEmpty input with
      | .error stop => .error stop
      | .ok (false, rest) => .ok (items.reverse, rest)
      | .ok (true, rest) =>
          match item rest with
          | .error stop => .error stop
          | .ok (a, rest) => readItems item fuel (a :: items) rest

/-- Reads an array. -/
def readArray {α : Type} (item : Bytes → Read α) (input : Bytes) : Read (List α) :=
  match skipBlanks input with
  | 0x5B :: rest => closing closeArray (readItems item rest [] rest)
  | input => mismatchAt input

/-- Reads one component of a tuple that is written as an array. -/
def readComponent {α : Type} (isFirst : Bool) (item : Bytes → Read α) (input : Bytes) : Read α :=
  match nextItem isFirst input with
  | .error stop => .error stop
  | .ok (false, rest) => mismatch rest
  | .ok (true, rest) => item rest

/-- Reads the two components of a pair, after the opening bracket. -/
def readComponents {α β : Type} (left : Bytes → Read α) (right : Bytes → Read β) (input : Bytes) :
    Except Stop ((α × β) × Bytes) := do
  let (a, rest) ← readComponent true left input
  let (b, rest) ← readComponent false right rest
  .ok ((a, b), rest)

/-- Reads a pair that is written as an array of two. -/
def readPair {α β : Type} (left : Bytes → Read α) (right : Bytes → Read β) (input : Bytes) :
    Read (α × β) :=
  match skipBlanks input with
  | 0x5B :: rest => closing closeArray (readComponents left right rest)
  | input => mismatchAt input

/-! ## Objects -/

/-- Reads a key. -/
def readKey (input : Bytes) : Read (Option String) :=
  match input with
  | 0x22 :: rest =>
      match readString rest with
      | .error stop => .error stop
      | .ok (name, rest) => .ok (some name, rest)
  | rest => malformed rest

/-- Moves to the key of the next member of an object, if there is one, and
reads it. -/
def nextKey (isFirst : Bool) (input : Bytes) : Read (Option String) :=
  match skipBlanks input with
  | [] => malformed []
  | b :: rest =>
      if b == 0x7D then .ok (none, b :: rest)
      else if isFirst then readKey (b :: rest)
      else if b == 0x2C then readKey (skipBlanks rest)
      else malformed (b :: rest)

/-- Reads the members of an object.  `member` is given what was read so far,
the key, and the bytes from the colon on. -/
def readMembers {σ : Type} (member : σ → String → Bytes → Read σ) (fuel : Bytes) (isFirst : Bool)
    (state : σ) (input : Bytes) : Read σ :=
  match fuel with
  | [] => malformed []
  | _ :: fuel =>
      match nextKey isFirst input with
      | .error stop => .error stop
      | .ok (none, rest) => .ok (state, rest)
      | .ok (some name, rest) =>
          match member state name rest with
          | .error stop => .error stop
          | .ok (state, rest) => readMembers member fuel false state rest

/-- Reads the value of a member after the colon. -/
def readMemberValue {α : Type} (value : Bytes → Read α) (input : Bytes) : Read α :=
  match skipColon input with
  | .error stop => .error stop
  | .ok ((), rest) => value rest

/-- Reads the value of a member that must not occur twice, given what was read
of it so far. -/
def readField {α : Type} (earlier : Option α) (value : Bytes → Read α) (input : Bytes) :
    Read (Option α) :=
  match earlier with
  | some _ => mismatch input
  | none =>
      match readMemberValue value input with
      | .error stop => .error stop
      | .ok (a, rest) => .ok (some a, rest)

/-- Passes over the value of a member that is not wanted. -/
def skipField (input : Bytes) : Read Unit :=
  readMemberValue skipValue input

/-- Reads the members of an object after its opening brace, makes a value of
them, and passes over the closing brace. -/
def readObject {σ α : Type} (start : σ) (member : σ → String → Bytes → Read σ)
    (finish : σ → Option α) (input : Bytes) : Read α :=
  closing closeObject <|
    match readMembers member input true start input with
    | .error stop => .error stop
    | .ok (state, rest) =>
        match finish state with
        | none => mismatch rest
        | some a => .ok (a, rest)

/-! ## Whole texts -/

/-- Reads a text that holds one value and nothing else but blanks. -/
def readAll {α : Type} (value : Bytes → Read α) (input : Bytes) : Except Fault α :=
  match value input with
  | .error stop => .error stop.fault
  | .ok (a, rest) => if (skipBlanks rest).isEmpty then .ok a else .error .malformed

end Turnstile.Json
