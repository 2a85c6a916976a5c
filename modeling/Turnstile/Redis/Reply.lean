import Turnstile.Store.Basic
import Turnstile.Text.Decimal

/-!
# Replies of a server

What a server answers to a command, and the values that a reply holds.
-/

namespace Turnstile.Redis

/-- A reply of a server. -/
inductive Reply where
  | nil
  | bulk (bytes : Bytes)
  | integer (n : Int)
  | status (text : String)
  | failure (text : String)
  | array (items : List Reply)
  deriving Inhabited

namespace Reply

/-- The text of the first failure in a reply. -/
def failure? : Reply → Option String
  | failure text => some text
  | array items => items.attach.findSome? fun item => item.1.failure?
  | _ => none
termination_by r => sizeOf r
decreasing_by
  have := List.sizeOf_lt_of_mem item.2
  simp only [array.sizeOf_spec]
  omega

/-- Whether a failure says that the server does not know the script. -/
def isUnknownScript (text : String) : Bool :=
  text.toList.takeWhile (· != ' ') = "NOSCRIPT".toList

/-- The error of a reply of another kind than wanted. -/
def unexpected : Store.Error := .backend "unexpected reply"

/-- The text that a reply holds. -/
def text : Reply → Except Store.Error String
  | bulk bytes =>
      match bytes.text? with
      | some text => .ok text
      | none => .error unexpected
  | status text => .ok text
  | integer n => .ok (Text.Decimal.ofInt n)
  | _ => .error unexpected

/-- The text that a reply holds, unless it holds nothing. -/
def text? : Reply → Except Store.Error (Option String)
  | nil => .ok none
  | reply => reply.text.map some

/-- The number that a text of digits with an optional sign stands for, if it
lies between two bounds. -/
def numberOfText? (low high : Int) (text : String) : Option Int :=
  let n := match text.toList with
    | '-' :: rest =>
        if low < 0 then (Text.Decimal.value? rest).map fun n => -(n : Int) else none
    | '+' :: rest => (Text.Decimal.value? rest).map fun n => (n : Int)
    | cs => (Text.Decimal.value? cs).map fun n => (n : Int)
  n.filter fun n => low ≤ n ∧ n ≤ high

/-- The number between two bounds that a reply holds as a number or a text. -/
def number (low high : Int) (ofInteger : Int → Int) : Reply → Except Store.Error Int
  | integer n => .ok (ofInteger n)
  | nil => .error unexpected
  | array _ => .error unexpected
  | reply =>
      match reply.text with
      | .error e => .error e
      | .ok text =>
          match numberOfText? low high text with
          | some n => .ok n
          | none => .error unexpected

/-- The signed number of 64 bits that a reply holds. -/
def signed (reply : Reply) : Except Store.Error Int :=
  reply.number (-9_223_372_036_854_775_808) 9_223_372_036_854_775_807 id

/-- The number of 64 bits that a reply holds; a negative one wraps around. -/
def count (reply : Reply) : Except Store.Error Nat :=
  (reply.number 0 18_446_744_073_709_551_615 (· % 18_446_744_073_709_551_616)).map Int.toNat

end Reply

end Turnstile.Redis
