import Turnstile.Json.Reader
import Turnstile.Json.Writer

/-!
# Reading back what was written

A value that was written is read back by the reader of its shape, whatever
follows it in the text around it.  In such a text a value is followed by a comma
or by a closing bracket, if by anything.

Main results:

- Theorem `reads_natural`: numbers read back.
- Theorem `reads_text`: texts read back.
- Theorem `reads_array`: arrays read back if their items do.
- Theorem `readObject_object`: objects read back if their members do.
- Theorem `readObject_stops`: they do not if a member does not.
-/

namespace Turnstile.Json

/-- The bytes that may follow a value: a comma or a closing bracket, if any. -/
def Delimited (rest : Bytes) : Prop :=
  ∀ b, rest.head? = some b → b = 0x2C ∨ b = 0x5D ∨ b = 0x7D

/-- The reader gives a value from its written form, whatever follows that, and
the written form begins as values do. -/
structure Reads {α : Type} (item : Bytes → Read α) (written : Bytes) (a : α) : Prop where
  begins : ∃ b more, written = b :: more ∧ isBlank b = false ∧ b ≠ 0x5D
  reads : ∀ rest, Delimited rest → item (written ++ rest) = .ok (a, rest)

/-- A comma may follow a value. -/
theorem delimited_comma (rest : Bytes) : Delimited (0x2C :: rest) := by
  intro b hb
  rw [List.head?_cons, Option.some.injEq] at hb
  exact Or.inl hb.symm

/-- The closing bracket of an array may follow a value. -/
theorem delimited_bracket (rest : Bytes) : Delimited (0x5D :: rest) := by
  intro b hb
  rw [List.head?_cons, Option.some.injEq] at hb
  exact Or.inr (Or.inl hb.symm)

/-- The closing brace of an object may follow a value. -/
theorem delimited_brace (rest : Bytes) : Delimited (0x7D :: rest) := by
  intro b hb
  rw [List.head?_cons, Option.some.injEq] at hb
  exact Or.inr (Or.inr hb.symm)

/-- No digit follows a value, so a number ends where its digits do. -/
theorem Delimited.not_digit {rest : Bytes} (h : Delimited rest) :
    (rest.head?.map isDigit).getD false = false := by
  cases hhead : rest.head? with
  | none => rfl
  | some b => rcases h b hhead with rfl | rfl | rfl <;> rfl

/-- Nothing is passed over before a byte that is not blank. -/
theorem skipBlanks_cons {b : UInt8} (h : isBlank b = false) (rest : Bytes) :
    skipBlanks (b :: rest) = b :: rest := by
  simp [skipBlanks, h]

/-- Before a written value no blanks are passed over, and its first byte closes no array. -/
theorem Reads.skipBlanks_eq {α : Type} {item : Bytes → Read α} {written : Bytes} {a : α}
    (h : Reads item written a) (rest : Bytes) :
    ∃ b more, b ≠ 0x5D ∧ written ++ rest = b :: more ∧ skipBlanks (written ++ rest) = b :: more := by
  rcases h.begins with ⟨b, more, rfl, hblank, hbracket⟩
  exact ⟨b, more ++ rest, hbracket, rfl, skipBlanks_cons hblank _⟩

/-- A reader that goes on to make something of the value. -/
theorem Reads.map {α β : Type} {item : Bytes → Read α} {written : Bytes} {a : α}
    (h : Reads item written a) (f : α → β) :
    Reads (fun input => (item input).map fun r => (f r.1, r.2)) written (f a) := by
  refine ⟨h.begins, ?_⟩
  intro rest hrest
  simp only [h.reads rest hrest, Except.map]

/-! ## Numbers -/

/-- The byte of a digit is read as that digit. -/
theorem isDigit_ascii : ∀ {n : Nat}, n < 10 →
    isDigit (UInt8.ofNat (Text.Decimal.digit n).toNat) = true ∧
      digitValue (UInt8.ofNat (Text.Decimal.digit n).toNat) = n := by
  decide

theorem head?_append_of_ne {α : Type} {xs ys : List α} (h : xs ≠ []) :
    (xs ++ ys).head? = xs.head? := by
  cases xs with
  | nil => exact absurd rfl h
  | cons x xs => rfl

/-- Every digit of a number is the digit of a number below ten. -/
theorem digits_eq_map (n : Nat) :
    ∃ ns : List Nat, Text.Decimal.digits n = ns.map Text.Decimal.digit ∧ (∀ m ∈ ns, m < 10) ∧
      ns.foldl (fun v m => v * 10 + m) 0 = n ∧ (0 < n → ns.head? ≠ some 0) ∧ ns ≠ [] := by
  induction n using Text.Decimal.digits.induct with
  | case1 n h =>
      refine ⟨[n], ?_, ?_, ?_, ?_, ?_⟩
      · unfold Text.Decimal.digits
        simp [h]
      · simpa using h
      · simp
      · intro hpos
        simp only [List.head?_cons, ne_eq, Option.some.injEq]
        omega
      · simp
  | case2 n h ih =>
      rcases ih with ⟨ns, hdigits, hsmall, hvalue, hhead, hne⟩
      refine ⟨ns ++ [n % 10], ?_, ?_, ?_, ?_, ?_⟩
      · unfold Text.Decimal.digits
        simp [h, hdigits]
      · intro m hm
        rcases List.mem_append.1 hm with hm | hm
        · exact hsmall m hm
        · rw [List.mem_singleton.1 hm]
          exact Nat.mod_lt _ (by omega)
      · simp only [List.foldl_append, List.foldl_cons, List.foldl_nil, hvalue]
        omega
      · intro _
        rw [head?_append_of_ne hne]
        exact hhead (by omega)
      · simp

/-- The bytes of digits. -/
def digitBytes (ns : List Nat) : Bytes :=
  ns.map fun m => UInt8.ofNat (Text.Decimal.digit m).toNat

/-- More digits never make a number smaller. -/
theorem le_foldl_digits (ns : List Nat) (v : Nat) : v ≤ ns.foldl (fun v m => v * 10 + m) v := by
  induction ns generalizing v with
  | nil => exact Nat.le_refl v
  | cons m ns ih =>
      rw [List.foldl_cons]
      have hrest := ih (v * 10 + m)
      omega

/-- The digits of a whole part are read to their end if their number can be
held. -/
theorem readWhole_digits {ns : List Nat} (hsmall : ∀ m ∈ ns, m < 10) {v : Nat}
    (hroom : ns.foldl (fun v m => v * 10 + m) v ≤ maxSignificand) {rest : Bytes}
    (hrest : Delimited rest) :
    readWhole v (digitBytes ns ++ rest) = (ns.foldl (fun v m => v * 10 + m) v, rest) := by
  induction ns generalizing v with
  | nil =>
      cases rest with
      | nil => rfl
      | cons b more =>
          have hdigit : isDigit b = false := hrest.not_digit
          simp [digitBytes, readWhole, hdigit]
  | cons m ns ih =>
      have hm := isDigit_ascii (hsmall m List.mem_cons_self)
      rw [List.foldl_cons] at hroom
      have hlow := le_foldl_digits ns (v * 10 + m)
      have hnext := ih (fun m hm => hsmall m (List.mem_cons_of_mem _ hm)) hroom
      have hfits : v * 10 + m ≤ maxSignificand := Nat.le_trans hlow hroom
      simp only [digitBytes, List.map_cons, List.cons_append, readWhole, hm.1, hm.2, hfits,
        decide_true, Bool.and_self, if_true, List.foldl_cons]
      exact hnext

/-- A whole number ends where its value does. -/
theorem readAfterWhole_delimited {rest : Bytes} (hrest : Delimited rest) (n : Nat) :
    readAfterWhole false n rest = .ok (.natural n, rest) := by
  cases rest with
  | nil => rfl
  | cons b more => rcases hrest b rfl with rfl | rfl | rfl <;> rfl

/-- A number without a sign is read from its first digit on. -/
theorem readNumber_of_ne {b : UInt8} (h : b ≠ 0x2D) (rest : Bytes) :
    readNumber (b :: rest) = readUnsigned false (b :: rest) := by
  unfold readNumber
  split
  · next heq => exact absurd (List.cons.inj heq).1 h
  · rfl

/-- The digit that a positive number begins with. -/
theorem isDigit_first : ∀ {n : Nat}, n < 10 → n ≠ 0 →
    (UInt8.ofNat (Text.Decimal.digit n).toNat == 0x30) = false ∧
      UInt8.ofNat (Text.Decimal.digit n).toNat ≠ 0x2D := by
  decide

/-- A number that can be held as a whole one is read to its end. -/
theorem readNumber_natural {n : Nat} (hn : n ≤ maxSignificand) {rest : Bytes}
    (hrest : Delimited rest) : readNumber (natural n ++ rest) = .ok (.natural n, rest) := by
  have hstop := hrest.not_digit
  have hend := readAfterWhole_delimited hrest n
  by_cases hzero : n = 0
  · subst hzero
    have hwritten : natural 0 = [0x30] := by
      unfold natural Text.Decimal.digits
      rfl
    rw [hwritten, List.singleton_append, readNumber_of_ne (by decide)]
    simp only [readUnsigned, beq_self_eq_true, if_true, hstop, Bool.false_eq_true, if_false]
    exact hend
  · rcases digits_eq_map n with ⟨ns, hdigits, hsmall, hvalue, hhead, hne⟩
    have hwritten : natural n = digitBytes ns := by
      simp [natural, ascii, digitBytes, hdigits]
    have hwhole : readWhole 0 (digitBytes ns ++ rest) = (n, rest) := by
      rw [readWhole_digits hsmall (by omega) hrest, hvalue]
    rw [hwritten]
    cases ns with
    | nil => exact absurd rfl hne
    | cons m ns =>
        have hm := hsmall m List.mem_cons_self
        have hfirst : m ≠ 0 := by
          intro hm0
          apply hhead (by omega)
          rw [List.head?_cons, hm0]
        have hdigit := (isDigit_ascii hm).1
        simp only [digitBytes, List.map_cons, List.cons_append] at hwhole ⊢
        rw [readNumber_of_ne (isDigit_first hm hfirst).2]
        simp only [readUnsigned, (isDigit_first hm hfirst).1, hdigit, hwhole, hstop,
          Bool.false_eq_true, if_false, if_true]
        exact hend

/-- The first byte of a number is a digit. -/
theorem natural_begins (n : Nat) : ∃ b more, natural n = b :: more ∧ isDigit b = true := by
  rcases digits_eq_map n with ⟨ns, hdigits, hsmall, _, _, hne⟩
  cases ns with
  | nil => exact absurd rfl hne
  | cons m ns =>
      refine ⟨_, digitBytes ns, ?_, (isDigit_ascii (hsmall m List.mem_cons_self)).1⟩
      simp [natural, ascii, hdigits, digitBytes]

/-- A digit is no blank and closes no array. -/
theorem not_blank_of_digit {b : UInt8} (h : isDigit b = true) : isBlank b = false ∧ b ≠ 0x5D := by
  simp only [isDigit, Bool.and_eq_true, decide_eq_true_eq, UInt8.le_iff_toNat_le,
    UInt8.reduceToNat] at h
  have hne : ∀ {c : UInt8}, c.toNat < 48 ∨ 57 < c.toNat → b ≠ c := by
    rintro c hc rfl
    omega
  refine ⟨?_, hne (by decide)⟩
  simp only [isBlank, Bool.or_eq_false_iff, beq_eq_false_iff_ne]
  exact ⟨⟨⟨hne (by decide), hne (by decide)⟩, hne (by decide)⟩, hne (by decide)⟩

/-- A number that was written is read back between bounds that hold it. -/
theorem reads_natural {n high : Nat} (hn : n ≤ high) (hhigh : high ≤ maxSignificand) :
    Reads (readInteger 0 high) (natural n) n := by
  rcases natural_begins n with ⟨b, more, hwritten, hdigit⟩
  rcases not_blank_of_digit hdigit with ⟨hblank, hbracket⟩
  refine ⟨⟨b, more, hwritten, hblank, hbracket⟩, ?_⟩
  intro rest hrest
  have hread := readNumber_natural (Nat.le_trans hn hhigh) hrest
  rw [hwritten, List.cons_append] at hread ⊢
  have hbounds : (0 : Int) ≤ n ∧ (n : Int) ≤ high := by omega
  simp only [readInteger, skipBlanks_cons hblank, hdigit, Bool.or_true, if_true, hread]
  rw [if_pos hbounds]

/-! ## Texts -/

/-- A code point of ASCII is one byte. -/
theorem codePointBytes_ascii {n : Nat} (hn : n < 128) : codePointBytes n = [UInt8.ofNat n] := by
  have hvalid : n.isValidChar := Or.inl (by omega)
  have hval : (Char.ofNat n).val.toNat = n := by
    unfold Char.ofNat
    rw [dif_pos hvalid]
    exact UInt32.toNat_ofNatLT
  have hsize : (Char.ofNat n).utf8Size = 1 := by
    rw [Char.utf8Size_eq_one_iff, UInt32.le_iff_toNat_le, hval]
    exact Nat.le_of_lt_succ hn
  unfold codePointBytes Bytes.ofText
  rw [String.toByteArray_singleton, List.utf8Encode_singleton,
    String.utf8EncodeChar_eq_singleton hsize]
  have hbyte : (Char.ofNat n).val.toUInt8 = UInt8.ofNat n := by
    rw [← UInt8.toNat_inj, UInt32.toNat_toUInt8, hval, UInt8.toNat_ofNat']
  simp [hbyte]

/-- The two digits of a control character. -/
theorem hex4?_control : ∀ {n : Nat}, n < 32 →
    hex4? 0x30 0x30 (UInt8.ofNat (Bytes.hexDigit (n / 16)).toNat)
      (UInt8.ofNat (Bytes.hexDigit (n % 16)).toNat) = some n := by
  decide

/-- A byte that needs no escape stands for itself. -/
theorem readContent_plain {b : UInt8} (hquote : (b == 0x22) = false) (hcontrol : ¬ b < 0x20)
    (hescape : (b != 0x5C) = true) (content rest : Bytes) :
    readContent content (b :: rest) = readContent (b :: content) rest := by
  rw [readContent.eq_def]
  simp only [hquote, Bool.false_eq_true, if_false, if_neg hcontrol, hescape, if_true]

/-- An escape of one letter stands for its byte. -/
theorem readContent_escaped {e byte : UInt8} (h : escapedByte? e = some byte)
    (he : (e != 0x75) = true) (content rest : Bytes) :
    readContent content (0x5C :: e :: rest) = readContent (byte :: content) rest := by
  have hquote : ((0x5C : UInt8) == 0x22) = false := rfl
  have hcontrol : ¬ (0x5C : UInt8) < 0x20 := by decide
  have hescape : ((0x5C : UInt8) != 0x5C) = false := rfl
  rw [readContent.eq_def]
  simp only [hquote, Bool.false_eq_true, if_false, if_neg hcontrol, hescape, he, if_true, h]

/-- An escape of four digits stands for its code point, if that is no surrogate. -/
theorem readContent_codePoint {a b c d : UInt8} {n : Nat} (h : hex4? a b c d = some n)
    (hlow : isLowSurrogate n = false) (hhigh : isHighSurrogate n = false) (content rest : Bytes) :
    readContent content (0x5C :: 0x75 :: a :: b :: c :: d :: rest) =
      readContent ((codePointBytes n).reverse ++ content) rest := by
  have hquote : ((0x5C : UInt8) == 0x22) = false := rfl
  have hcontrol : ¬ (0x5C : UInt8) < 0x20 := by decide
  have hescape : ((0x5C : UInt8) != 0x5C) = false := rfl
  have hunicode : ((0x75 : UInt8) != 0x75) = false := rfl
  rw [readContent.eq_def]
  simp only [hquote, Bool.false_eq_true, if_false, if_neg hcontrol, hescape, hunicode, h, hlow,
    hhigh]

/-- Every byte is read back from its written form. -/
theorem readContent_escapeByte (b : UInt8) (content rest : Bytes) :
    readContent content (escapeByte b ++ rest) = readContent (b :: content) rest := by
  by_cases hletter : b = 0x22 ∨ b = 0x5C ∨ b = 0x08 ∨ b = 0x0C ∨ b = 0x0A ∨ b = 0x0D ∨ b = 0x09
  · rcases hletter with rfl | rfl | rfl | rfl | rfl | rfl | rfl
    all_goals exact readContent_escaped rfl rfl content rest
  · simp only [not_or] at hletter
    rcases hletter with ⟨h1, h2, h3, h4, h5, h6, h7⟩
    unfold escapeByte
    simp only [beq_eq_false_iff_ne.2 h1, beq_eq_false_iff_ne.2 h2, beq_eq_false_iff_ne.2 h3,
      beq_eq_false_iff_ne.2 h4, beq_eq_false_iff_ne.2 h5, beq_eq_false_iff_ne.2 h6,
      beq_eq_false_iff_ne.2 h7, Bool.false_eq_true, if_false]
    by_cases hcontrol : b < 0x20
    · have hsmall : b.toNat < 32 := hcontrol
      have hlow : isLowSurrogate b.toNat = false := by
        simp only [isLowSurrogate, Bool.and_eq_false_iff, decide_eq_false_iff_not]
        omega
      have hhigh : isHighSurrogate b.toNat = false := by
        simp only [isHighSurrogate, Bool.and_eq_false_iff, decide_eq_false_iff_not]
        omega
      have hread := readContent_codePoint (hex4?_control hsmall) hlow hhigh content rest
      rw [codePointBytes_ascii (by omega), UInt8.ofNat_toNat] at hread
      rw [if_pos hcontrol]
      exact hread
    · rw [if_neg hcontrol]
      exact readContent_plain (beq_eq_false_iff_ne.2 h1) hcontrol (by simpa using h2) content rest

/-- Escaped bytes are read back up to the closing quote. -/
theorem readContent_escaped_bytes (bytes content rest : Bytes) :
    readContent content (bytes.flatMap escapeByte ++ 0x22 :: rest) =
      .ok (content.reverse ++ bytes, rest) := by
  induction bytes generalizing content with
  | nil =>
      rw [List.flatMap_nil, List.nil_append, readContent.eq_def]
      simp
  | cons b bytes ih =>
      rw [List.flatMap_cons, List.append_assoc, readContent_escapeByte, ih]
      simp

/-- A text in quotes is read back after its opening quote. -/
theorem readString_text (t : String) (rest : Bytes) :
    readString ((Bytes.ofText t).flatMap escapeByte ++ 0x22 :: rest) = .ok (t, rest) := by
  unfold readString
  simp only [readContent_escaped_bytes, List.reverse_nil, List.nil_append, Bytes.text?_ofText]

/-- What a text begins with where more follows it. -/
theorem text_append (t : String) (rest : Bytes) :
    text t ++ rest = 0x22 :: ((Bytes.ofText t).flatMap escapeByte ++ 0x22 :: rest) := by
  simp [text]

/-- A text that was written is read back. -/
theorem reads_text (t : String) : Reads readText (text t) t := by
  refine ⟨⟨0x22, _, rfl, rfl, by decide⟩, ?_⟩
  intro rest _
  rw [text_append]
  exact readString_text t rest

/-! ## Arrays -/

section

variable {α β : Type} {item : Bytes → Read α}

/-- The first value stands alone and every other one after a comma. -/
theorem flatten_intersperse (written : Bytes) (others : List Bytes) :
    ((written :: others).intersperse [0x2C]).flatten =
      written ++ others.flatMap fun other => 0x2C :: other := by
  induction others generalizing written with
  | nil => simp
  | cons other others ih =>
      rw [List.intersperse_cons_cons]
      simp only [List.flatten_cons, ih, List.flatMap_cons, List.cons_append,
        List.nil_append]

/-- Every item of a list is written with a byte at least. -/
theorem length_le_flatMap (others : List Bytes) :
    others.length ≤ (others.flatMap fun other => (0x2C : UInt8) :: other).length := by
  induction others with
  | nil => exact Nat.le_refl _
  | cons other others ih =>
      simp only [List.flatMap_cons, List.length_append, List.length_cons]
      omega

/-- The first item of an array stands right after the bracket. -/
theorem nextItem_first {written : Bytes} {a : α} (h : Reads item written a) (rest : Bytes) :
    nextItem true (written ++ rest) = .ok (true, written ++ rest) := by
  rcases h.skipBlanks_eq rest with ⟨b, more, hbracket, hwritten, hskip⟩
  unfold nextItem
  rw [hskip, hwritten]
  simp [hbracket]

/-- Every other item stands after a comma. -/
theorem nextItem_comma {written : Bytes} {a : α} (h : Reads item written a) (rest : Bytes) :
    nextItem false (0x2C :: (written ++ rest)) = .ok (true, written ++ rest) := by
  rcases h.skipBlanks_eq rest with ⟨b, more, hbracket, hwritten, hskip⟩
  unfold nextItem
  rw [skipBlanks_cons rfl]
  dsimp only
  rw [hskip, hwritten]
  simp [hbracket]

/-- The closing bracket ends the items. -/
theorem nextItem_end (isFirst : Bool) (rest : Bytes) :
    nextItem isFirst (0x5D :: rest) = .ok (false, 0x5D :: rest) := rfl

/-- What follows an item of an array is a comma or the closing bracket. -/
theorem delimited_items (others : List Bytes) (rest : Bytes) :
    Delimited ((others.flatMap fun other => 0x2C :: other) ++ 0x5D :: rest) := by
  cases others with
  | nil => exact delimited_bracket rest
  | cons other others =>
      simp only [List.flatMap_cons, List.cons_append]
      exact delimited_comma _

/-- The items after the first are read to the closing bracket. -/
theorem readItems_others {items : List α} {write : α → Bytes}
    (h : ∀ a ∈ items, Reads item (write a) a) {taken : List α} (htaken : taken ≠ [])
    {fuel : Bytes} (hfuel : items.length < fuel.length) (rest : Bytes) :
    readItems item fuel taken
        (((items.map write).flatMap fun other => 0x2C :: other) ++ 0x5D :: rest) =
      .ok (taken.reverse ++ items, 0x5D :: rest) := by
  have hnotFirst : ∀ {xs : List α}, xs ≠ [] → xs.isEmpty = false := by
    intro xs hxs
    cases xs with
    | nil => exact absurd rfl hxs
    | cons x xs => rfl
  induction items generalizing taken fuel with
  | nil =>
      cases fuel with
      | nil => simp at hfuel
      | cons b fuel =>
          simp only [List.map_nil, List.flatMap_nil, List.nil_append, readItems, nextItem_end,
            List.append_nil]
  | cons a items ih =>
      cases fuel with
      | nil => simp at hfuel
      | cons b fuel =>
          have ha := h a List.mem_cons_self
          have hothers := fun a' ha' => h a' (List.mem_cons_of_mem _ ha')
          have hread := ha.reads _ (delimited_items (items.map write) rest)
          have hsome : a :: taken ≠ [] := by simp
          have hshort : items.length < fuel.length := by simpa using hfuel
          have hnext := ih hothers hsome hshort
          simp only [List.map_cons, List.flatMap_cons, List.cons_append, List.append_assoc,
            readItems, hnotFirst htaken, nextItem_comma ha, hread, hnext, List.reverse_cons,
            List.nil_append]

/-- The items of an array are read to the closing bracket. -/
theorem readItems_array {items : List α} {write : α → Bytes}
    (h : ∀ a ∈ items, Reads item (write a) a) {fuel : Bytes} (hfuel : items.length < fuel.length)
    (rest : Bytes) :
    readItems item fuel [] (((items.map write).intersperse [0x2C]).flatten ++ 0x5D :: rest) =
      .ok (items, 0x5D :: rest) := by
  cases items with
  | nil =>
      cases fuel with
      | nil => simp at hfuel
      | cons b fuel => rfl
  | cons a items =>
      cases fuel with
      | nil => simp at hfuel
      | cons b fuel =>
          have ha := h a List.mem_cons_self
          have hothers := fun a' ha' => h a' (List.mem_cons_of_mem _ ha')
          have hread := ha.reads _ (delimited_items (items.map write) rest)
          have hsome : [a] ≠ [] := by simp
          have hshort : items.length < fuel.length := by simpa using hfuel
          have hnext := readItems_others hothers hsome hshort rest
          rw [List.map_cons, flatten_intersperse]
          simp only [List.append_assoc, readItems, List.isEmpty_nil, nextItem_first ha, hread,
            hnext, List.reverse_cons, List.reverse_nil, List.nil_append, List.cons_append]

/-- Items are read with as many bytes of fuel as they are written with. -/
theorem length_lt_items {items : List α} {write : α → Bytes}
    (h : ∀ a ∈ items, Reads item (write a) a) (rest : Bytes) :
    items.length < (((items.map write).intersperse [0x2C]).flatten ++ 0x5D :: rest).length := by
  cases items with
  | nil => simp
  | cons a items =>
      rcases (h a List.mem_cons_self).begins with ⟨b, more, hwritten, _⟩
      have hothers := length_le_flatMap (items.map write)
      rw [List.length_map] at hothers
      rw [List.map_cons, flatten_intersperse, hwritten]
      simp only [List.length_append, List.length_cons]
      omega

/-- An array is closed by its bracket. -/
theorem closing_array {a : α} (rest : Bytes) :
    closing closeArray (.ok (a, 0x5D :: rest)) = .ok (a, rest) := rfl

/-- An array is read from its opening bracket on. -/
theorem readArray_bracket (more : Bytes) :
    readArray item (0x5B :: more) = closing closeArray (readItems item more [] more) := rfl

/-- So is a pair. -/
theorem readPair_bracket (left : Bytes → Read α) (right : Bytes → Read β) (more : Bytes) :
    readPair left right (0x5B :: more) = closing closeArray (readComponents left right more) := rfl

/-- An array that was written is read back if its items are. -/
theorem reads_array {items : List α} {write : α → Bytes}
    (h : ∀ a ∈ items, Reads item (write a) a) :
    Reads (readArray item) (array (items.map write)) items := by
  refine ⟨⟨0x5B, _, rfl, rfl, by decide⟩, ?_⟩
  intro rest _
  have hread := readItems_array h (length_lt_items h rest) rest
  have hwritten : array (items.map write) ++ rest =
      0x5B :: (((items.map write).intersperse [0x2C]).flatten ++ 0x5D :: rest) := by
    simp [array]
  rw [hwritten, readArray_bracket, hread, closing_array]

/-- A pair that was written as an array of two is read back if its components
are. -/
theorem reads_pair {left : Bytes → Read α} {right : Bytes → Read β} {written written' : Bytes}
    {a : α} {b : β} (ha : Reads left written a) (hb : Reads right written' b) :
    Reads (readPair left right) (array [written, written']) (a, b) := by
  refine ⟨⟨0x5B, _, rfl, rfl, by decide⟩, ?_⟩
  intro rest _
  have hleft := ha.reads (0x2C :: (written' ++ 0x5D :: rest)) (delimited_comma _)
  have hright := hb.reads (0x5D :: rest) (delimited_bracket _)
  have hcomponents : readComponents left right
      (written ++ 0x2C :: (written' ++ 0x5D :: rest)) = .ok ((a, b), 0x5D :: rest) := by
    simp only [readComponents, readComponent, nextItem_first ha, nextItem_comma hb, hleft, hright,
      bind, Except.bind]
  have hwritten : array [written, written'] ++ rest =
      0x5B :: (written ++ 0x2C :: (written' ++ 0x5D :: rest)) := by
    simp [array]
  rw [hwritten, readPair_bracket, hcomponents, closing_array]

end

/-! ## Objects -/

section

variable {σ α : Type} {member : σ → String → Bytes → Read σ}

/-- The written form of a member. -/
def memberBytes (m : String × Bytes) : Bytes := text m.1 ++ 0x3A :: m.2

/-- Reading the members one after the other leads from one state to another. -/
inductive Gathers (member : σ → String → Bytes → Read σ) : σ → List (String × Bytes) → σ → Prop where
  | nil (s : σ) : Gathers member s [] s
  | cons {s t u : σ} {name : String} {written : Bytes} {members : List (String × Bytes)}
      (h : ∀ rest, Delimited rest → member s name (0x3A :: (written ++ rest)) = .ok (t, rest))
      (hrest : Gathers member t members u) : Gathers member s ((name, written) :: members) u

/-- Reading the members one after the other breaks off at one of them. -/
inductive Stops (member : σ → String → Bytes → Read σ) : σ → List (String × Bytes) → Prop where
  | here {s : σ} {name : String} {written : Bytes} {members : List (String × Bytes)}
      (h : ∀ rest, Delimited rest → ∃ stop, member s name (0x3A :: (written ++ rest)) = .error stop) :
      Stops member s ((name, written) :: members)
  | later {s t : σ} {name : String} {written : Bytes} {members : List (String × Bytes)}
      (h : ∀ rest, Delimited rest → member s name (0x3A :: (written ++ rest)) = .ok (t, rest))
      (hrest : Stops member t members) : Stops member s ((name, written) :: members)

/-- Members that are gathered one after the other are gathered together. -/
theorem Gathers.append {s t u : σ} {members others : List (String × Bytes)}
    (h : Gathers member s members t) (hothers : Gathers member t others u) :
    Gathers member s (members ++ others) u := by
  induction h with
  | nil s => exact hothers
  | cons hmember _ ih => exact .cons hmember (ih hothers)

/-- Reading breaks off in what follows members that are gathered. -/
theorem Gathers.stops {s t : σ} {members others : List (String × Bytes)}
    (h : Gathers member s members t) (hothers : Stops member t others) :
    Stops member s (members ++ others) := by
  induction h with
  | nil s => exact hothers
  | cons hmember _ ih => exact .later hmember (ih hothers)

/-- The key of a written member is read back, up to the colon. -/
theorem readKey_member (m : String × Bytes) (rest : Bytes) :
    readKey (memberBytes m ++ rest) = .ok (some m.1, 0x3A :: (m.2 ++ rest)) := by
  unfold memberBytes
  rw [List.append_assoc, text_append]
  simp only [readKey, List.cons_append, readString_text]

/-- No blanks stand before a written member. -/
theorem skipBlanks_member (m : String × Bytes) (rest : Bytes) :
    skipBlanks (memberBytes m ++ rest) = memberBytes m ++ rest := by
  unfold memberBytes
  rw [List.append_assoc, text_append]
  exact skipBlanks_cons rfl _

/-- The key of the first member stands right after the brace. -/
theorem nextKey_first (m : String × Bytes) (rest : Bytes) :
    nextKey true (memberBytes m ++ rest) = .ok (some m.1, 0x3A :: (m.2 ++ rest)) := by
  have hkey := readKey_member m rest
  have hskip := skipBlanks_member m rest
  have hwritten : ∃ more, memberBytes m ++ rest = 0x22 :: more := by
    unfold memberBytes
    rw [List.append_assoc, text_append]
    exact ⟨_, rfl⟩
  rcases hwritten with ⟨more, hwritten⟩
  unfold nextKey
  rw [hskip]
  rw [hwritten] at hkey ⊢
  exact hkey

/-- The key of every other member stands after a comma. -/
theorem nextKey_comma (m : String × Bytes) (rest : Bytes) :
    nextKey false (0x2C :: (memberBytes m ++ rest)) = .ok (some m.1, 0x3A :: (m.2 ++ rest)) := by
  have hkey := readKey_member m rest
  have hskip := skipBlanks_member m rest
  unfold nextKey
  rw [skipBlanks_cons rfl]
  have hbrace : ((0x2C : UInt8) == 0x7D) = false := rfl
  simp only [hbrace, Bool.false_eq_true, if_false, beq_self_eq_true, if_true, hskip, hkey]

/-- The bytes of the members after the first, and of the closing brace. -/
def othersBytes (members : List (String × Bytes)) (rest : Bytes) : Bytes :=
  ((members.map memberBytes).flatMap fun other => 0x2C :: other) ++ 0x7D :: rest

/-- Each of the other members is written after a comma. -/
theorem othersBytes_cons (m : String × Bytes) (members : List (String × Bytes)) (rest : Bytes) :
    othersBytes (m :: members) rest = 0x2C :: (memberBytes m ++ othersBytes members rest) := by
  simp only [othersBytes, List.map_cons, List.flatMap_cons, List.cons_append, List.append_assoc]

/-- What follows a member of an object is a comma or the closing brace. -/
theorem delimited_othersBytes (members : List (String × Bytes)) (rest : Bytes) :
    Delimited (othersBytes members rest) := by
  cases members with
  | nil => exact delimited_brace rest
  | cons m members =>
      rw [othersBytes_cons]
      exact delimited_comma _

/-- The members after the first are read to the closing brace. -/
theorem readMembers_others {s s' : σ} {members : List (String × Bytes)}
    (h : Gathers member s members s') {fuel : Bytes} (hfuel : members.length < fuel.length)
    (rest : Bytes) :
    readMembers member fuel false s (othersBytes members rest) = .ok (s', 0x7D :: rest) := by
  induction h generalizing fuel with
  | nil s =>
      cases fuel with
      | nil => simp at hfuel
      | cons b fuel => rfl
  | @cons s s' s'' name written members hmember _ ih =>
      cases fuel with
      | nil => simp at hfuel
      | cons b fuel =>
          have hread := hmember _ (delimited_othersBytes members rest)
          have hshort : members.length < fuel.length := by simpa using hfuel
          have hnext := ih hshort
          simp only [othersBytes_cons, readMembers, nextKey_comma, hread, hnext]

/-- The members after the first are not read if one of them breaks off. -/
theorem readMembers_stops {s : σ} {members : List (String × Bytes)} (h : Stops member s members)
    (fuel rest : Bytes) :
    ∃ stop, readMembers member fuel false s (othersBytes members rest) = .error stop := by
  induction h generalizing fuel with
  | @here s name written members hmember =>
      rcases hmember _ (delimited_othersBytes members rest) with ⟨stop, hstop⟩
      cases fuel with
      | nil => exact ⟨_, rfl⟩
      | cons b fuel =>
          simp only [othersBytes_cons, readMembers, nextKey_comma, hstop]
          exact ⟨stop, rfl⟩
  | @later s t name written members hmember _ ih =>
      have hread := hmember _ (delimited_othersBytes members rest)
      cases fuel with
      | nil => exact ⟨_, rfl⟩
      | cons b fuel =>
          simp only [othersBytes_cons, readMembers, nextKey_comma, hread]
          exact ih fuel

/-- What an object begins with where more follows it. -/
theorem object_append (m : String × Bytes) (members : List (String × Bytes)) (rest : Bytes) :
    object (m :: members) ++ rest = 0x7B :: (memberBytes m ++ othersBytes members rest) := by
  have hbytes : (fun m : String × Bytes => text m.1 ++ 0x3A :: m.2) = memberBytes := rfl
  simp only [object, othersBytes, hbytes, List.map_cons, flatten_intersperse, List.cons_append,
    List.append_assoc, List.nil_append]

/-- An object that was written is not read back if one of its members breaks
off. -/
theorem readObject_stops {s : σ} {m : String × Bytes} {members : List (String × Bytes)}
    (h : Stops member s (m :: members)) (finish : σ → Option α) (rest : Bytes) :
    ∃ more stop, object (m :: members) ++ rest = 0x7B :: more ∧
      readObject s member finish more = .error stop := by
  have hmembers : ∀ fuel, ∃ stop,
      readMembers member fuel true s (memberBytes m ++ othersBytes members rest) = .error stop := by
    intro fuel
    cases fuel with
    | nil => exact ⟨_, rfl⟩
    | cons b fuel =>
        cases h with
        | here hmember =>
            rcases hmember _ (delimited_othersBytes members rest) with ⟨stop, hstop⟩
            simp only [readMembers, nextKey_first, hstop]
            exact ⟨stop, rfl⟩
        | later hmember hrest =>
            have hread := hmember _ (delimited_othersBytes members rest)
            simp only [readMembers, nextKey_first, hread]
            exact readMembers_stops hrest fuel rest
  rcases hmembers (memberBytes m ++ othersBytes members rest) with ⟨stop, hstop⟩
  refine ⟨_, ⟨stop.fault, restOf (closeObject stop.rest)⟩, object_append m members rest, ?_⟩
  unfold readObject
  rw [hstop]
  rfl

/-- An object that was written is read back, after its opening brace, if its
members lead to a value. -/
theorem readObject_object {s s' : σ} {a : α} {finish : σ → Option α} {m : String × Bytes}
    {members : List (String × Bytes)} (h : Gathers member s (m :: members) s')
    (hfinish : finish s' = some a) (rest : Bytes) :
    ∃ more, object (m :: members) ++ rest = 0x7B :: more ∧
      readObject s member finish more = .ok (a, rest) := by
  refine ⟨_, object_append m members rest, ?_⟩
  cases h with
  | @cons _ s₁ _ name written _ hmember hrest =>
      have hread := hmember _ (delimited_othersBytes members rest)
      have hlength := length_le_flatMap (members.map memberBytes)
      have hmembers : readMembers member
          (memberBytes (name, written) ++ othersBytes members rest) true s
          (memberBytes (name, written) ++ othersBytes members rest) = .ok (s', 0x7D :: rest) := by
        have hfuel : ∃ b fuel, memberBytes (name, written) ++ othersBytes members rest = b :: fuel ∧
            members.length < fuel.length := by
          unfold memberBytes othersBytes
          rw [List.append_assoc, text_append]
          refine ⟨_, _, rfl, ?_⟩
          rw [List.length_map] at hlength
          simp only [List.length_append, List.length_cons]
          omega
        rcases hfuel with ⟨b, fuel, hfuel, hlong⟩
        have hnext := readMembers_others hrest hlong rest
        rw [hfuel, readMembers, ← hfuel, nextKey_first]
        simp only [hread, hnext]
      unfold readObject
      rw [hmembers]
      simp only [hfinish]
      rfl

end

end Turnstile.Json
