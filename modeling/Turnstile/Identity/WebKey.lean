import Turnstile.Json.Value

/-!
# Web keys

A token may carry a key in its header.  Nothing is done with such a key, but a
header whose key is no web key is refused.  A web key is an object: some of its
members may stand in any key, and the others belong to its type, which decides
which of them there must be.
-/

namespace Turnstile.WebKey

open Json (Read Value)

/-- The members of an object, in order. -/
abbrev Members := List (String × Value)

/-- The values of all members of a name. -/
def valuesOf (name : String) (members : Members) : List Value :=
  (members.filter fun m => m.1 == name).map Prod.snd

/-! ## Members of any key -/

/-- The algorithms that a key may be meant for. -/
def algorithms : List String :=
  ["HS256", "HS384", "HS512", "ES256", "ES384", "RS256", "RS384", "RS512", "PS256", "PS384",
    "PS512", "EdDSA", "RSA1_5", "RSA-OAEP", "RSA-OAEP-256"]

/-- Whether a value names an algorithm. -/
def isAlgorithm (v : Value) : Bool :=
  match v.choice? with
  | some (name, content) =>
      algorithms.contains name && content.all fun v => v.isNull || v.isEmptyObject
  | none => false

/-- The members that any key may have, each with the values that it takes
besides `null`. -/
def commonMembers : List (String × (Value → Bool)) :=
  [("use", Value.isText), ("key_ops", Value.isTexts), ("alg", isAlgorithm),
    ("kid", Value.isText), ("x5u", Value.isText), ("x5c", Value.isTexts),
    ("x5t", Value.isText), ("x5t#S256", Value.isText)]

/-- Whether a member that any key may have is absent, or occurs once with a
value that it takes. -/
def admits (members : Members) (name : String) (isValid : Value → Bool) : Bool :=
  match valuesOf name members with
  | [] => true
  | [v] => v.isNull || isValid v
  | _ => false

/-! ## Types of keys -/

/-- Whether a value is one of some names. -/
def isOneOf (names : List String) (v : Value) : Bool :=
  match v.choice? with
  | some (name, content) => names.contains name && content.all Value.isNull
  | none => false

/-- The curves that a key may lie on. -/
def curves : List String := ["P-256", "P-384", "P-521", "Ed25519"]

/-- The types of keys. -/
inductive Kind where
  | ellipticCurve
  | rsa
  | octets
  | octetPair
  deriving DecidableEq

namespace Kind

/-- All types. -/
def all : List Kind := [ellipticCurve, rsa, octets, octetPair]

/-- The name of a type. -/
def name : Kind → String
  | ellipticCurve => "EC"
  | rsa => "RSA"
  | octets => "oct"
  | octetPair => "OKP"

/-- The members that a key of a type must have besides its type, each with the
values that it takes. -/
def parameters : Kind → List (String × (Value → Bool))
  | ellipticCurve => [("crv", isOneOf curves), ("x", Value.isText), ("y", Value.isText)]
  | rsa => [("n", Value.isText), ("e", Value.isText)]
  | octets => [("k", Value.isText)]
  | octetPair => [("crv", isOneOf curves), ("x", Value.isText)]

/-- All members that a key of a type must have. -/
def requirements (k : Kind) : List (String × (Value → Bool)) :=
  ("kty", isOneOf [k.name]) :: k.parameters

end Kind

/-- Whether a member occurs once, with a value that it takes. -/
def fulfils (members : Members) (name : String) (isValid : Value → Bool) : Bool :=
  match valuesOf name members with
  | [v] => isValid v
  | _ => false

/-- Whether the members of an object are those of a key of a type; others are
not looked at. -/
def isOfKind (members : Members) (k : Kind) : Bool :=
  k.requirements.all fun (name, isValid) => fulfils members name isValid

/-- Whether the members of an object are those of a key. -/
def isKey (members : Members) : Bool :=
  commonMembers.all (fun (name, isValid) => admits members name isValid) &&
    Kind.all.any (isOfKind members)

/-! ## Reading -/

/-- The brackets that may be open at once inside a key in the header of a
token. -/
def maxDepth : Nat := 125

/-- Reads a key. -/
def readKey (input : Bytes) : Read Unit :=
  match Json.skipBlanks input with
  | 0x7B :: rest =>
      Json.readObject [] (Json.readAnyMember (Json.readValue maxDepth))
        (fun members => if isKey members.reverse then some () else none) rest
  | input => Json.mismatchAt input

end Turnstile.WebKey
