/-!
# Tables

A table maps keys of text to entries.  It is a list of pairs in which every
key occurs once; a look-up gives its view.

Main results:

- `lookup_insert_self`, `lookup_insert_of_ne`, `lookup_erase_self`,
  `lookup_erase_of_ne`: what each operation does to the view.
- `keysDistinct_insert`, `keysDistinct_erase`, `keysDistinct_keep`: no
  operation makes a key occur twice.
-/

namespace Turnstile.Store

/-- A table of entries under keys of text. -/
structure Table (α : Type) where
  entries : List (String × α)
  deriving DecidableEq

namespace Table

variable {α : Type}

/-- The table without entries. -/
def empty : Table α := ⟨[]⟩

/-- The entry under a key. -/
def lookup (t : Table α) (key : String) : Option α :=
  (t.entries.find? (·.1 = key)).map (·.2)

/-- Removes the entry under a key. -/
def erase (t : Table α) (key : String) : Table α :=
  ⟨t.entries.filter (·.1 ≠ key)⟩

/-- Puts an entry under a key, in place of the one that it has. -/
def insert (t : Table α) (key : String) (entry : α) : Table α :=
  ⟨(key, entry) :: (t.erase key).entries⟩

/-- Keeps the entries that pass a test. -/
def keep (t : Table α) (test : α → Bool) : Table α :=
  ⟨t.entries.filter fun e => test e.2⟩

/-- The number of entries. -/
def size (t : Table α) : Nat :=
  t.entries.length

/-- Every key occurs once. -/
def KeysDistinct (t : Table α) : Prop :=
  (t.entries.map (·.1)).Nodup

/-! ## The view -/

@[simp]
theorem lookup_empty (key : String) : (empty : Table α).lookup key = none := rfl

theorem find?_filter_ne {entries : List (String × α)} {key other : String} (h : other ≠ key) :
    (entries.filter (·.1 ≠ key)).find? (·.1 = other) = entries.find? (·.1 = other) := by
  induction entries with
  | nil => rfl
  | cons e entries ih =>
      by_cases he : e.1 = key
      · have : ¬ key = other := fun hk => h hk.symm
        simpa [he, this] using ih
      · by_cases ho : e.1 = other
        · simp [ho, h]
        · simpa [he, ho] using ih

@[simp]
theorem lookup_erase_self (t : Table α) (key : String) : (t.erase key).lookup key = none := by
  simp [erase, lookup]

theorem lookup_erase_of_ne (t : Table α) {key other : String} (h : other ≠ key) :
    (t.erase key).lookup other = t.lookup other := by
  simp only [erase, lookup, find?_filter_ne h]

@[simp]
theorem lookup_insert_self (t : Table α) (key : String) (entry : α) :
    (t.insert key entry).lookup key = some entry := by
  simp [insert, lookup]

theorem lookup_insert_of_ne (t : Table α) {key other : String} (entry : α) (h : other ≠ key) :
    (t.insert key entry).lookup other = t.lookup other := by
  have : ¬ key = other := fun hk => h hk.symm
  have he := lookup_erase_of_ne t h
  simp only [lookup] at he
  simp [insert, lookup, this, he]

/-! ## Distinct keys -/

theorem keysDistinct_empty : (empty : Table α).KeysDistinct := by
  simp [KeysDistinct, empty]

theorem keysDistinct_filter {t : Table α} (p : String × α → Bool) (h : t.KeysDistinct) :
    KeysDistinct ⟨t.entries.filter p⟩ :=
  h.sublist (List.filter_sublist.map _)

theorem keysDistinct_erase {t : Table α} (key : String) (h : t.KeysDistinct) :
    (t.erase key).KeysDistinct :=
  keysDistinct_filter _ h

theorem keysDistinct_keep {t : Table α} (test : α → Bool) (h : t.KeysDistinct) :
    (t.keep test).KeysDistinct :=
  keysDistinct_filter _ h

theorem keysDistinct_insert {t : Table α} (key : String) (entry : α) (h : t.KeysDistinct) :
    (t.insert key entry).KeysDistinct := by
  have he := keysDistinct_erase key h
  unfold KeysDistinct insert
  simp only [List.map_cons, List.nodup_cons]
  refine ⟨?_, he⟩
  simp [erase]

end Table

end Turnstile.Store
