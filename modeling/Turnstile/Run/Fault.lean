import Turnstile.Store.Basic

/-!
# Faults

How a run treats the calls of its store: a call may have to wait before it is
carried out, may fail without being carried out, and may have to wait with its
answer.  A plan says so for the first, second, … call of every kind.
-/

namespace Turnstile.Run

open Store (Operation)

/-- How one call is treated.  A call either fails and changes nothing, or it is
carried out and answered as it was; the answer may come after the deadline of its
caller, who is then told of a timeout although the call took effect.  That a call
takes effect and is answered with another error before the deadline cannot be
said. -/
structure Treatment where
  /-- The nanoseconds for which the call waits before it is carried out. -/
  before : Option Nat
  /-- The error with which it fails instead of being carried out. -/
  failure : Option Store.Error
  /-- The nanoseconds for which its answer waits. -/
  after : Option Nat
  deriving DecidableEq

/-- A call that is carried out at once. -/
def Treatment.plain : Treatment := ⟨none, none, none⟩

/-- The treatment of each call, by its kind and its number among the calls of
that kind, which are counted from one. -/
abbrev Plan := Operation → Nat → Treatment

/-- The plan without faults. -/
def Plan.faultless : Plan := fun _ _ => .plain

/-- A rule of a plan. -/
structure Rule where
  operation : Operation
  /-- The number of the call that the rule is for; `none` for each. -/
  nth : Option Nat
  treatment : Treatment
  deriving DecidableEq

/-- Whether a rule is for the call of a kind and number. -/
def Rule.applies (r : Rule) (operation : Operation) (n : Nat) : Bool :=
  r.operation = operation ∧ (r.nth = none ∨ r.nth = some n)

/-- The plan in which the first rule that is for a call says how it is
treated. -/
def Plan.ofRules (rules : List Rule) : Plan := fun operation n =>
  match rules.find? (·.applies operation n) with
  | some rule => rule.treatment
  | none => .plain

/-- How many calls of each kind have begun. -/
abbrev Counts := Operation → Nat

/-- No call has begun. -/
def Counts.zero : Counts := fun _ => 0

/-- One more call of a kind has begun. -/
def Counts.next (counts : Counts) (operation : Operation) : Counts := fun other =>
  if other = operation then counts other + 1 else counts other

end Turnstile.Run
