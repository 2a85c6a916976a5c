import Turnstile.Digest.Sha256
import Turnstile.Identity.WebKey
import Turnstile.Text.Base64Url

/-!
# Signed web tokens

A token has three parts with points between them: a header, a payload and a
signature.  The header names the algorithm, of which only HMAC with SHA-256 is
accepted; the signature is that of the first two parts as they are written.
The payload names a subject and the time at which the token expires.  Other
members of the two have to be well formed to a degree, but decide nothing,
except that a token that is meant for an audience is refused.

Main results:

- `split?_join`: the parts of a token are told apart by its last two points.
-/

namespace Turnstile.WebToken

open Json (Read)

/-! ## Parts -/

/-- The text before and after the last occurrence of a point. -/
def splitLast? (cs : List Char) : Option (List Char × List Char) :=
  let tail := (cs.reverse.takeWhile (· != '.')).reverse
  if tail.length < cs.length then some (cs.take (cs.length - tail.length - 1), tail) else none

/-- The three written parts of a token. -/
structure Parts where
  header : List Char
  payload : List Char
  signature : List Char
  deriving DecidableEq

/-- The parts of a token. -/
def Parts.ofText? (cs : List Char) : Option Parts := do
  let (message, signature) ← splitLast? cs
  let (header, payload) ← splitLast? message
  some ⟨header, payload, signature⟩

/-- What is signed. -/
def Parts.message (p : Parts) : List Char :=
  p.header ++ '.' :: p.payload

/-- The signature of a message under a secret. -/
def sign (secret : String) (message : List Char) : List Char :=
  Text.Base64Url.encode
    (Digest.Sha256.hmac (Bytes.ofText secret) (Bytes.ofText (String.ofList message)))

/-! ## Header -/

/-- The algorithm that is accepted. -/
def algorithm : String := "HS256"

/-- What a member of a header holds. -/
inductive HeaderMember where
  | algorithm
  /-- A text or `null`. -/
  | text
  /-- An array of texts or `null`. -/
  | texts
  /-- A web key or `null`. -/
  | key
  deriving DecidableEq

/-- The members of a header, in the order that they have in a header which is
written as an array. -/
def headerMembers : List (String × HeaderMember) :=
  [("typ", .text), ("alg", .algorithm), ("cty", .text), ("jku", .text), ("jwk", .key),
    ("kid", .text), ("x5u", .text), ("x5c", .texts), ("x5t", .text), ("x5t#S256", .text)]

/-- Reads the name of an algorithm: a text, or an object with one member that
has the name and is `null`. -/
def readAlgorithm (input : Bytes) : Read String :=
  match Json.skipBlanks input with
  | 0x7B :: rest =>
      match Json.readText rest with
      | .error stop => .error stop
      | .ok (name, rest) =>
          match Json.readMemberValue Json.readNull rest with
          | .error stop => .error stop
          | .ok ((), rest) => (Json.closeObject rest).map fun r => (name, r.2)
  | input => Json.readText input

/-- Reads the value of a member, and gives the algorithm where it is that. -/
def HeaderMember.read (input : Bytes) : HeaderMember → Read (Option String)
  | algorithm => (readAlgorithm input).map fun r => (some r.1, r.2)
  | text => (Json.readOption Json.readText input).map fun r => (none, r.2)
  | texts => (Json.readOption (Json.readArray Json.readText) input).map fun r => (none, r.2)
  | key => (Json.readOption WebKey.readKey input).map fun r => (none, r.2)

/-- What was read of a header so far. -/
structure Header where
  /-- The names of the members. -/
  seen : List String
  algorithm : Option String
  deriving DecidableEq

/-- Reads one member of a header that is written as an object. -/
def readHeaderMember (h : Header) (name : String) (input : Bytes) : Read Header :=
  match headerMembers.lookup name with
  | none => (Json.skipField input).map fun r => (h, r.2)
  | some member =>
      if h.seen.contains name then Json.mismatch input
      else
        (Json.readMemberValue member.read input).map fun r =>
          (⟨name :: h.seen, r.1.or h.algorithm⟩, r.2)

/-- Reads the members of a header that is written as an array. -/
def readHeaderItems (isFirst : Bool) (found : Option String) (input : Bytes) :
    List HeaderMember → Read (Option String)
  | [] => .ok (found, input)
  | member :: more =>
      match Json.readComponent isFirst member.read input with
      | .error stop => .error stop
      | .ok (a, rest) => readHeaderItems false (a.or found) rest more

/-- Reads a header, and gives its algorithm. -/
def readHeader (input : Bytes) : Read (Option String) :=
  match Json.skipBlanks input with
  | 0x7B :: rest =>
      Json.readObject ⟨[], none⟩ readHeaderMember (fun h => h.algorithm.map some) rest
  | 0x5B :: rest =>
      Json.closing Json.closeArray
        (readHeaderItems true none rest (headerMembers.map Prod.snd))
  | input => Json.mismatchAt input

/-! ## Payload

A payload is read twice: for its subject, which must be a text, and for the
members that decide whether the token holds, of which those of another shape
count as absent. -/

/-- Reads one member of a payload for its subject. -/
def readSubjectMember (found : Option String) (name : String) (input : Bytes) :
    Read (Option String) :=
  if name = "sub" then Json.readField found Json.readText input
  else (Json.skipField input).map fun r => (found, r.2)

/-- Reads the subject of a payload. -/
def readSubject (input : Bytes) : Read String :=
  match Json.skipBlanks input with
  | 0x7B :: rest => Json.readObject none readSubjectMember id rest
  | input => Json.mismatchAt input

/-- The first number of seconds that is too large for a time. -/
def secondsBound : Nat := 18_446_744_073_709_551_616

/-- The whole seconds nearest to a number, halves going up. -/
def secondsOf : Json.Number → Option Nat
  | .natural n => some n
  | .negative _ => none
  | .real isNegative d =>
      if isNegative = true ∧ d.significand ≠ 0 then none
      else if d.numerator < secondsBound * d.denominator then some d.round
      else none

/-- Reads a time in seconds.  Of a bracket only the opening is read, and its
closing, if that follows. -/
def readSeconds (input : Bytes) : Read Nat :=
  match Json.skipBlanks input with
  | [] => Json.malformed []
  | b :: rest =>
      if b == 0x5B then Json.closing Json.closeArray (Json.mismatch rest)
      else if b == 0x7B then Json.closing Json.closeObject (Json.mismatch rest)
      else if b == 0x2D || Json.isDigit b then
        match Json.readNumber (b :: rest) with
        | .error stop => .error stop
        | .ok (n, rest) =>
            match secondsOf n with
            | some seconds => .ok (seconds, rest)
            | none => Json.mismatch rest
      else Json.mismatchAt (b :: rest)

/-- The brackets that may be open at once inside a member of a payload. -/
def maxDepth : Nat := 126

/-- Reads a name or an array of names. -/
def readNames (input : Bytes) : Read Unit :=
  match Json.readValue maxDepth input with
  | .error stop => .error stop
  | .ok (v, rest) => if v.isText || v.isTexts then .ok ((), rest) else Json.mismatch rest

/-- What was read so far of the members that decide whether a token holds. -/
structure Claims where
  /-- The names of the members. -/
  seen : List String
  /-- When the token expires, in seconds. -/
  expiry : Option Nat
  /-- Whether the token is meant for somebody in particular. -/
  hasAudience : Bool
  deriving DecidableEq

/-- No member at all. -/
def Claims.none : Claims := ⟨[], .none, false⟩

/-- Reads one member of a payload for its claims. -/
def readClaim (c : Claims) (name : String) (input : Bytes) : Read Claims :=
  let once {α : Type} (value : Bytes → Read α) (update : α → Claims → Claims) : Read Claims :=
    if c.seen.contains name then Json.mismatch input
    else
      (Json.readMemberValue (Json.attempt value) input).map fun r =>
        let c := { c with seen := name :: c.seen }
        (match r.1 with
          | some a => update a c
          | .none => c, r.2)
  if name = "exp" then once readSeconds fun seconds c => { c with expiry := some seconds }
  else if name = "nbf" then once readSeconds fun _ c => c
  else if name = "sub" then once (Json.readOption Json.readText) fun _ c => c
  else if name = "iss" then once (Json.readOption readNames) fun _ c => c
  else if name = "aud" then
    once (Json.readOption readNames) fun names c => { c with hasAudience := names.isSome }
  else (Json.skipField input).map fun r => (c, r.2)

/-- Reads the claims of a payload. -/
def readClaims (input : Bytes) : Read Claims :=
  match Json.skipBlanks input with
  | 0x7B :: rest => Json.readObject Claims.none readClaim some rest
  | input => Json.mismatchAt input

/-! ## Verification -/

/-- How long after its expiry a token is still accepted, in seconds. -/
def leeway : Nat := 60

/-- Whether claims hold at a time given in seconds: they have not expired, and
no audience is named, since the service has no name of its own. -/
def Claims.hold (c : Claims) (now : Int) : Bool :=
  match c.expiry with
  | some expiry => now - leeway ≤ expiry && !c.hasAudience
  | .none => false

/-- The subject of a token that is signed under a secret and holds at a time. -/
def subject? (secret : String) (now : Int) (text : String) : Option String := do
  let parts ← Parts.ofText? text.toList
  let header ← Text.Base64Url.decode? parts.header
  let named ← (Json.readAll readHeader header).toOption
  if named ≠ some algorithm then none
  if parts.signature ≠ sign secret parts.message then none
  let payload ← Text.Base64Url.decode? parts.payload
  let subject ← (Json.readAll readSubject payload).toOption
  let claims ← (Json.readAll readClaims payload).toOption
  if claims.hold now then some subject else none

/-! ## Laws -/

theorem splitLast?_append {front tail : List Char} (h : '.' ∉ tail) :
    splitLast? (front ++ '.' :: tail) = some (front, tail) := by
  have ht : ((front ++ '.' :: tail).reverse.takeWhile (· != '.')) = tail.reverse := by
    have : (front ++ '.' :: tail).reverse = tail.reverse ++ '.' :: front.reverse := by simp
    rw [this, List.takeWhile_append_of_pos]
    · simp
    · intro c hc
      simp only [bne_iff_ne, ne_eq]
      rintro rfl
      exact h (by simpa using hc)
  have hl : (front ++ '.' :: tail).length - tail.length - 1 = front.length := by
    simp only [List.length_append, List.length_cons]
    omega
  unfold splitLast?
  simp only [ht, List.reverse_reverse, hl, List.take_left, ite_eq_left_iff]
  simp only [List.length_append, List.length_cons]
  omega

/-- The parts of a token are told apart by its last two points. -/
theorem split?_join (p : Parts) (hp : '.' ∉ p.payload) (hs : '.' ∉ p.signature) :
    Parts.ofText? (p.message ++ '.' :: p.signature) = some p := by
  unfold Parts.ofText?
  rw [splitLast?_append hs]
  simp [Parts.message, splitLast?_append hp]

end Turnstile.WebToken
