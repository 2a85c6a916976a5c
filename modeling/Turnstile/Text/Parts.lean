/-!
# Parts of a text

Splitting a text at the occurrences of a character, and joining parts with the
character between them.

Main results:

- `join_splitOn`: splitting and joining give the text back.
-/

namespace Turnstile.Text

/-- The parts of a text between the occurrences of a character. -/
def splitOn (separator : Char) : List Char → List (List Char)
  | [] => [[]]
  | c :: rest =>
      if c = separator then [] :: splitOn separator rest
      else
        match splitOn separator rest with
        | part :: parts => (c :: part) :: parts
        | [] => [[c]]

/-- Parts with a separator between them. -/
def join (separator : Char) : List (List Char) → List Char
  | [] => []
  | [part] => part
  | part :: parts => part ++ separator :: join separator parts

theorem splitOn_ne_nil (separator : Char) (cs : List Char) : splitOn separator cs ≠ [] := by
  induction cs with
  | nil => simp [splitOn]
  | cons c rest ih =>
      unfold splitOn
      split
      · simp
      · split <;> simp

/-- Splitting and joining give the text back. -/
theorem join_splitOn (separator : Char) (cs : List Char) :
    join separator (splitOn separator cs) = cs := by
  induction cs with
  | nil => rfl
  | cons c rest ih =>
      unfold splitOn
      split
      · next h =>
          cases hs : splitOn separator rest with
          | nil => exact absurd hs (splitOn_ne_nil separator rest)
          | cons part parts => simp [join, hs ▸ ih, h]
      · cases hs : splitOn separator rest with
        | nil => exact absurd hs (splitOn_ne_nil separator rest)
        | cons part parts =>
            rw [hs] at ih
            cases parts with
            | nil => simpa [join] using ih
            | cons next parts => simpa [join] using ih

end Turnstile.Text
