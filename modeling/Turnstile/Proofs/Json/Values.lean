import Turnstile.Json.Value
import Turnstile.Proofs.Json.RoundTrip

/-!
# Reading values of any shape

Numbers, texts and objects that were written are read back as JSON values by a reader that
wants no shape in particular.  So what a JSON text tells under a name can be said by what
its reader finds there, without the text itself.

Main results:

- Theorem `reads_number_value`: numbers of 64 bits read back.
- Theorem `reads_text_value`: texts read back.
- Theorem `reads_object_value`: objects read back with the members that were written, in
  their order.
- Theorem `readAll_of_reads`: a text that holds one such value is read to its end.
-/

namespace Turnstile.Json

/-- The values that an object has under a name, in their order. -/
def Value.under (name : String) : Value → List Value
  | .object members => (members.filter fun m => m.1 = name).map Prod.snd
  | _ => []

/-! ## Numbers and texts -/

/-- A byte that is a digit begins a number. -/
theorem readValue_digit {b : UInt8} (h : isDigit b = true) (depth : Nat) (rest : Bytes) :
    readValue depth (b :: rest) =
      (readNumber (b :: rest)).map fun r => (.number r.1, r.2) := by
  have hne : ∀ c : UInt8, isDigit c = false → (b == c) = false := by
    intro c hc
    rw [beq_eq_false_iff_ne]
    rintro rfl
    rw [h] at hc
    exact Bool.noConfusion hc
  unfold readValue
  rw [skipBlanks_cons (not_blank_of_digit h).1]
  simp only [hne 0x6E rfl, hne 0x74 rfl, hne 0x66 rfl, h, Bool.or_true, Bool.false_eq_true,
    if_false, if_true]

/-- A number that was written is read back, if it can be held in 64 bits. -/
theorem reads_number_value {n : Nat} (hn : n ≤ maxSignificand) (depth : Nat) :
    Reads (readValue depth) (natural n) (.number (.natural n)) := by
  rcases natural_begins n with ⟨b, more, hwritten, hdigit⟩
  rcases not_blank_of_digit hdigit with ⟨hblank, hbracket⟩
  refine ⟨⟨b, more, hwritten, hblank, hbracket⟩, ?_⟩
  intro rest hrest
  have hread := readNumber_natural hn hrest
  rw [hwritten, List.cons_append] at hread ⊢
  rw [readValue_digit hdigit, hread]
  rfl

/-- A text that was written is read back. -/
theorem reads_text_value (t : String) (depth : Nat) :
    Reads (readValue depth) (text t) (.text t) := by
  refine ⟨⟨0x22, _, rfl, rfl, by decide⟩, ?_⟩
  intro rest _
  have hread := readString_text t rest
  have hquote : ∀ more, readValue depth (0x22 :: more) =
      (readString more).map fun r => (.text r.1, r.2) := fun more => by
    unfold readValue
    rfl
  rw [text_append, hquote, hread]
  rfl

/-! ## Objects -/

/-- Members are written under their names, each with a form in which its value is read
back. -/
inductive Writes (depth : Nat) : List (String × Bytes) → List (String × Value) → Prop where
  | nil : Writes depth [] []
  | cons {name : String} {written : Bytes} {value : Value} {writtens : List (String × Bytes)}
      {members : List (String × Value)} (hvalue : Reads (readValue depth) written value)
      (hrest : Writes depth writtens members) :
      Writes depth ((name, written) :: writtens) ((name, value) :: members)

/-- The members that were written are gathered, the last one first. -/
theorem gathers_of_writes {depth : Nat} {writtens : List (String × Bytes)}
    {members : List (String × Value)} (h : Writes depth writtens members)
    (earlier : List (String × Value)) :
    Gathers (readAnyMember (readValue depth)) earlier writtens (members.reverse ++ earlier) := by
  induction h generalizing earlier with
  | nil => exact .nil earlier
  | @cons name written value writtens members hvalue _ ih =>
      rw [List.reverse_cons, List.append_assoc, List.singleton_append]
      refine .cons ?_ (ih ((name, value) :: earlier))
      intro rest hrest
      have hcolon : skipColon (0x3A :: (written ++ rest)) = .ok ((), written ++ rest) := rfl
      simp only [readAnyMember, readMemberValue, hcolon, hvalue.reads rest hrest, Except.map]

/-- An object that was written is read back with its members, if their values are read
back below its brace. -/
theorem reads_object_value {depth : Nat} {written : String × Bytes}
    {writtens : List (String × Bytes)} {members : List (String × Value)}
    (h : Writes depth (written :: writtens) members) :
    Reads (readValue (depth + 1)) (object (written :: writtens)) (.object members) := by
  refine ⟨⟨0x7B, _, rfl, rfl, by decide⟩, ?_⟩
  intro rest _
  have hgathers := gathers_of_writes h []
  rw [List.append_nil] at hgathers
  let finish : List (String × Value) → Option (List (String × Value)) :=
    fun members => some members.reverse
  have hfinish : finish members.reverse = some members :=
    congrArg some members.reverse_reverse
  rcases readObject_object hgathers hfinish rest with ⟨more, hobject, hread⟩
  have hbrace : readValue (depth + 1) (0x7B :: more) =
      (readAnyMembers (readValue depth) more).map fun r => (.object r.1, r.2) := by
    unfold readValue
    rfl
  rw [hobject, hbrace, readAnyMembers, hread]
  rfl

/-! ## Whole texts -/

/-- A text that holds one value is read to its end. -/
theorem readAll_of_reads {α : Type} {item : Bytes → Read α} {written : Bytes} {a : α}
    (h : Reads item written a) : readAll item written = .ok a := by
  have hread := h.reads [] nofun
  rw [List.append_nil] at hread
  unfold readAll
  rw [hread]
  rfl

end Turnstile.Json
