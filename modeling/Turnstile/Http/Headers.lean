import Turnstile.Bytes
import Turnstile.Http.Method

/-!
# Header maps

A header map keeps its names in the order in which each was first given, and
the values of a name together in the order in which they were added.  Names
are held in lower case.  A map has room for any number of headers: the bound of
some 24000 beyond which an implementation breaks off is left out.

Main results:

- `values_insert_self`: after an insertion the name has the one value given.
- `values_insert_of_ne`: an insertion leaves the other names alone.
-/

namespace Turnstile.Http

/-- The longest name of a header, in bytes. -/
def maxHeaderName : Nat := 65535

/-- The name of a header in lower case, if the text may name one. -/
def headerName? (text : String) : Option String :=
  if isToken text ∧ text.utf8ByteSize ≤ maxHeaderName then some (lower text) else none

/-- Whether bytes may be the value of a header. -/
def isHeaderValue (value : Bytes) : Bool :=
  value.all fun b => b == 9 || (32 ≤ b && b != 127)

/-- The value of a header as text, if it has visible characters of ASCII,
spaces and tabs only. -/
def visibleText? (value : Bytes) : Option String :=
  if value.all fun b => b == 9 || (32 ≤ b && b < 127) then
    some (String.ofList (value.map fun b => Char.ofNat b.toNat))
  else none

/-- A header map: each name with its values, however many there are. -/
structure Headers where
  groups : List (String × List Bytes)
  deriving DecidableEq

namespace Headers

/-- The map without headers. -/
def empty : Headers := ⟨[]⟩

/-- The values of a name, in their order. -/
def values (h : Headers) (name : String) : List Bytes :=
  match h.groups.find? (·.1 = name) with
  | some group => group.2
  | none => []

/-- The first value of a name. -/
def get? (h : Headers) (name : String) : Option Bytes :=
  (h.values name).head?

/-- Whether a name has a value. -/
def contains (h : Headers) (name : String) : Bool :=
  h.groups.any (·.1 = name)

/-- Adds a value after those that the name has. -/
def append (h : Headers) (name : String) (value : Bytes) : Headers :=
  if h.contains name then
    ⟨h.groups.map fun group => if group.1 = name then (name, group.2 ++ [value]) else group⟩
  else ⟨h.groups ++ [(name, [value])]⟩

/-- Makes a value the only one of the name, which keeps its place if it had
values. -/
def insert (h : Headers) (name : String) (value : Bytes) : Headers :=
  if h.contains name then
    ⟨h.groups.map fun group => if group.1 = name then (name, [value]) else group⟩
  else ⟨h.groups ++ [(name, [value])]⟩

/-- The headers as pairs of name and value, in the order of the map. -/
def toList (h : Headers) : List (String × Bytes) :=
  h.groups.flatMap fun group => group.2.map fun value => (group.1, value)

/-- The map that the pairs make when added one after the other. -/
def ofList (pairs : List (String × Bytes)) : Headers :=
  pairs.foldl (fun h pair => h.append pair.1 pair.2) empty

/-! ## Insertion -/

theorem find?_map_replace {groups : List (String × List Bytes)} {name : String} {value : Bytes}
    (h : groups.any (·.1 = name) = true) :
    (groups.map fun group => if group.1 = name then (name, [value]) else group).find?
      (·.1 = name) = some (name, [value]) := by
  induction groups with
  | nil => simp at h
  | cons group groups ih =>
      by_cases hg : group.1 = name
      · simp [hg]
      · have : groups.any (·.1 = name) = true := by simpa [hg] using h
        simpa [hg] using ih this

theorem find?_map_other {groups : List (String × List Bytes)} {name other : String}
    {value : Bytes} (hne : other ≠ name) :
    (groups.map fun group => if group.1 = name then (name, [value]) else group).find?
      (·.1 = other) = groups.find? (·.1 = other) := by
  induction groups with
  | nil => rfl
  | cons group groups ih =>
      by_cases hg : group.1 = name
      · have h₁ : ¬ name = other := fun h => hne h.symm
        simp [hg, h₁, ih]
      · by_cases ho : group.1 = other
        · simp [ho, hne]
        · simp [hg, ho, ih]

/-- After an insertion the name has the one value given. -/
theorem values_insert_self (h : Headers) (name : String) (value : Bytes) :
    (h.insert name value).values name = [value] := by
  by_cases hc : h.contains name = true
  · have := @find?_map_replace h.groups name value hc
    simp only [insert, hc, if_true, values, this]
  · have : h.groups.find? (·.1 = name) = none := by
      rw [List.find?_eq_none]
      intro group hmem hname
      exact hc (List.any_eq_true.2 ⟨group, hmem, hname⟩)
    simp [insert, hc, values, List.find?_append, this]

/-- An insertion leaves the other names alone. -/
theorem values_insert_of_ne (h : Headers) {name other : String} (value : Bytes)
    (hne : other ≠ name) : (h.insert name value).values other = h.values other := by
  by_cases hc : h.contains name = true
  · simp only [insert, hc, if_true, values, find?_map_other hne]
  · have : ¬ name = other := fun h => hne h.symm
    simp [insert, hc, values, List.find?_append, this]

end Headers

end Turnstile.Http
