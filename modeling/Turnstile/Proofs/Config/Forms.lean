import Mathlib.Data.List.TakeWhile
import Turnstile.Config.Environment

/-!
# The forms of the values

What a value must look like to denote a setting, said of the characters it consists of
and not of the steps that read it: blanks around a core, and for the core a numeral with
or without units behind it, one of a few words in any letter case, or tokens with commas
between them.  Each reader finds exactly the settings that its form allows.

Main results:

- Theorem `number?_eq_some_iff`: a number is read where the value is a numeral with units.
- Theorem `switch?_eq_some_iff`: a position is read where the value is one of the words.
- Theorem `methods?_eq_some_iff`: methods are read where the value lists tokens.
-/

namespace Turnstile

namespace Text

/-! ## Blanks around a core -/

/-- A text that is a core with blanks around it. -/
def Padded (cs core : List Char) : Prop :=
  ∃ before after, cs = before ++ core ++ after ∧
    (∀ c ∈ before, isBlank c) ∧ ∀ c ∈ after, isBlank c

/-- What trimming takes away are blanks. -/
theorem padded_trim (text : String) : Padded text.toList (trim text).toList := by
  let rest := trimLeft text.toList
  refine ⟨text.toList.takeWhile isBlank, (rest.reverse.takeWhile isBlank).reverse, ?_, ?_, ?_⟩
  · have hright : trimRight rest ++ (rest.reverse.takeWhile isBlank).reverse = rest := by
      rw [trimRight, ← List.reverse_append, List.takeWhile_append_dropWhile, List.reverse_reverse]
    rw [trim, String.toList_ofList, List.append_assoc, hright]
    exact List.takeWhile_append_dropWhile.symm
  · exact fun c hc => List.mem_takeWhile_imp hc
  · exact fun c hc => List.mem_takeWhile_imp (List.mem_reverse.mp hc)

/-- What stays behind a run that is dropped from the end. -/
theorem reverse_dropWhile_append {p : Char → Bool} {core after : List Char}
    (hcore : ∀ c ∈ core, p c = false) (hafter : ∀ c ∈ after, p c) :
    ((core ++ after).reverse.dropWhile p).reverse = core := by
  rw [List.reverse_append, List.dropWhile_append_of_pos (by simpa using hafter)]
  have hstay : core.reverse.dropWhile p = core.reverse :=
    List.dropWhile_eq_self_iff.mpr fun hlen => by
      rw [Bool.not_eq_true]
      exact hcore _ (List.mem_reverse.mp (List.getElem_mem hlen))
  rw [hstay, List.reverse_reverse]

/-- A core without blanks is what trimming leaves. -/
theorem toList_trim_of_padded {text : String} {core : List Char}
    (h : Padded text.toList core) (hcore : ∀ c ∈ core, isBlank c = false) :
    (trim text).toList = core := by
  obtain ⟨before, after, heq, hbefore, hafter⟩ := h
  rw [trim, String.toList_ofList, trimLeft, heq, List.append_assoc,
    List.dropWhile_append_of_pos hbefore]
  cases core with
  | nil =>
      have hnone : after.dropWhile isBlank = [] := List.dropWhile_eq_nil_iff.mpr hafter
      rw [List.nil_append, hnone]
      rfl
  | cons c core =>
      have hstay : (c :: core ++ after).dropWhile isBlank = c :: core ++ after := by
        simp [hcore c List.mem_cons_self]
      rw [hstay]
      exact reverse_dropWhile_append hcore hafter

/-- Trimming leaves a core without blanks just where it has only blanks around it. -/
theorem toList_trim_eq_iff {text : String} {core : List Char}
    (hcore : ∀ c ∈ core, isBlank c = false) :
    (trim text).toList = core ↔ Padded text.toList core :=
  ⟨fun h => h ▸ padded_trim text, fun h => toList_trim_of_padded h hcore⟩

/-- Trimming leaves nothing just of blanks. -/
theorem trim_eq_empty_iff {item : List Char} :
    trim (String.ofList item) = "" ↔ ∀ c ∈ item, isBlank c := by
  rw [← String.toList_inj, String.toList_empty, toList_trim_eq_iff (by simp),
    String.toList_ofList]
  constructor
  · rintro ⟨before, after, rfl, hbefore, hafter⟩ c hc
    simp only [List.append_nil, List.mem_append] at hc
    exact hc.elim (hbefore c) (hafter c)
  · exact fun h => ⟨item, [], by simp, h, by simp⟩

/-! ## Parts -/

/-- A text without the separator is one part. -/
theorem splitOn_of_notMem {separator : Char} {part : List Char} (h : separator ∉ part) :
    splitOn separator part = [part] := by
  induction part with
  | nil => rfl
  | cons c part ih =>
      have hc : c ≠ separator := fun heq => h (heq ▸ List.mem_cons_self)
      simp [splitOn, hc, ih fun hmem => h (List.mem_cons_of_mem c hmem)]

/-- The first part ends at the first separator. -/
theorem splitOn_append_cons {separator : Char} {part : List Char} (h : separator ∉ part)
    (rest : List Char) :
    splitOn separator (part ++ separator :: rest) = part :: splitOn separator rest := by
  induction part with
  | nil => simp [splitOn]
  | cons c part ih =>
      have hc : c ≠ separator := fun heq => h (heq ▸ List.mem_cons_self)
      simp [splitOn, hc, ih fun hmem => h (List.mem_cons_of_mem c hmem)]

/-- Parts that do not hold the separator are split where they were joined. -/
theorem splitOn_join {separator : Char} {parts : List (List Char)} (hne : parts ≠ [])
    (h : ∀ part ∈ parts, separator ∉ part) : splitOn separator (join separator parts) = parts := by
  induction parts with
  | nil => exact absurd rfl hne
  | cons part parts ih =>
      cases parts with
      | nil => exact splitOn_of_notMem (h part (by simp))
      | cons next parts =>
          have htail := ih (by simp) fun p hp => h p (List.mem_cons_of_mem part hp)
          rw [join, splitOn_append_cons (h part (by simp)), htail]
          simp

/-! ## Numerals -/

namespace Decimal

/-- Digits of ASCII, after a plus sign or none, and the number they stand for. -/
def Numeral (cs : List Char) (n : Nat) : Prop :=
  ∃ ds, (cs = ds ∨ cs = '+' :: ds) ∧ ds ≠ [] ∧ (∀ d ∈ ds, isDigit d) ∧ n = valueFrom 0 ds

/-- Digits have a value, and nothing else has one. -/
theorem value?_eq_some_iff {ds : List Char} {n : Nat} :
    value? ds = some n ↔ ds ≠ [] ∧ (∀ d ∈ ds, isDigit d) ∧ n = valueFrom 0 ds := by
  unfold value?
  by_cases hne : ds = []
  · simp [hne]
  · by_cases hall : ds.all isDigit
    · simp only [List.isEmpty_iff, hne, if_false, hall, if_true, Option.some.injEq, ne_eq,
        not_false_eq_true, true_and]
      exact ⟨fun h => ⟨List.all_eq_true.mp hall, h.symm⟩, fun h => h.2.symm⟩
    · simp only [List.isEmpty_iff, hne, if_false, hall, reduceCtorEq, false_iff, not_and]
      exact fun _ h => absurd (List.all_eq_true.mpr h) hall

/-- A number is read from the numerals that stand for one within the bound. -/
theorem bounded?_eq_some_iff {bound : Nat} {cs : List Char} {n : Nat} :
    bounded? bound cs = some n ↔ Numeral cs n ∧ n ≤ bound := by
  unfold bounded? Numeral
  simp only [Option.filter_eq_some_iff, decide_eq_true_eq, value?_eq_some_iff]
  refine and_congr_left fun _ => ?_
  constructor
  · intro h
    split at h
    · exact ⟨_, .inr rfl, h⟩
    · exact ⟨_, .inl rfl, h⟩
  · rintro ⟨ds, rfl | rfl, hds⟩
    · split
      · next rest => exact absurd (hds.2.1 '+' (by simp)) (by decide)
      · exact hds
    · exact hds

/-- The characters of numerals are neither blanks nor units. -/
theorem Numeral.plain {cs : List Char} {n : Nat} (h : Numeral cs n) :
    ∀ c ∈ cs, isBlank c = false ∧ (c == 's') = false := by
  have hdigit : ∀ d, isDigit d → isBlank d = false ∧ (d == 's') = false := by
    intro d hd
    simp only [isDigit, Bool.and_eq_true, decide_eq_true_eq] at hd
    constructor
    · simp only [isBlank, Bool.or_eq_false_iff, Bool.and_eq_false_iff, decide_eq_false_iff_not,
        beq_eq_false_iff_ne]
      omega
    · refine beq_eq_false_iff_ne.mpr fun heq => ?_
      rw [heq] at hd
      exact absurd hd (by decide)
  obtain ⟨ds, rfl | rfl, -, hds, -⟩ := h
  · exact fun c hc => hdigit c (hds c hc)
  · intro c hc
    rcases List.mem_cons.mp hc with rfl | hc
    · decide
    · exact hdigit c (hds c hc)

end Decimal

end Text

/-! ## Letters -/

namespace Http

/-- The characters of ASCII are those below 128. -/
theorem toNat_ofNat {n : Nat} (hn : n < 128) : (Char.ofNat n).toNat = n := by
  have hvalid : n.isValidChar := .inl (by omega)
  rw [Char.ofNat, dif_pos hvalid]
  exact UInt32.toNat_ofNatLT

/-- Blanks have no case. -/
theorem isBlank_lowerChar (c : Char) : Text.isBlank (lowerChar c) = Text.isBlank c := by
  unfold lowerChar
  split
  · next h =>
      rw [Bool.eq_iff_iff]
      simp only [Text.isBlank, toNat_ofNat (show c.toNat + 32 < 128 by omega), Bool.or_eq_true,
        Bool.and_eq_true, decide_eq_true_eq, beq_iff_eq]
      omega
  · rfl

/-- A character may stand in a token in either case. -/
theorem isTokenChar_upperChar (c : Char) : isTokenChar (upperChar c) = isTokenChar c := by
  unfold upperChar
  split
  · next h =>
      rw [Bool.eq_iff_iff]
      simp only [isTokenChar, toNat_ofNat (show c.toNat - 32 < 128 by omega), Bool.or_eq_true,
        Bool.and_eq_true, decide_eq_true_eq, beq_iff_eq]
      omega
  · rfl

/-- A text is a token in upper case just where it is one as it stands. -/
theorem isToken_upper (text : String) : isToken (upper text) = isToken text := by
  simp [isToken, upper, isTokenChar_upperChar, Function.comp_def]

/-- No blank may stand in a token. -/
theorem not_blank_of_isTokenChar {c : Char} (h : isTokenChar c) : Text.isBlank c = false := by
  simp only [isTokenChar, Bool.or_eq_true, Bool.and_eq_true, decide_eq_true_eq,
    beq_iff_eq] at h
  simp only [Text.isBlank, Bool.or_eq_false_iff, Bool.and_eq_false_iff, decide_eq_false_iff_not,
    beq_eq_false_iff_ne]
  omega

end Http

namespace Config

open Text (Padded isBlank)
open Text.Decimal (Numeral)

/-! ## Numbers -/

/-- The values that are a number below `bound`, with any number of units behind it. -/
def IsNumber (bound : Nat) (value : String) (n : Nat) : Prop :=
  ∃ numeral units, Padded value.toList (numeral ++ List.replicate units 's') ∧
    Numeral numeral n ∧ n < bound

/-- The values that are a number below `bound` without a unit. -/
def IsBareNumber (bound : Nat) (value : String) (n : Nat) : Prop :=
  ∃ numeral, Padded value.toList numeral ∧ Numeral numeral n ∧ n < bound

/-- What is dropped at the end are units. -/
theorem exists_dropUnit_append (cs : List Char) :
    ∃ units, dropUnit cs ++ List.replicate units 's' = cs := by
  let run := (cs.reverse.takeWhile (· == 's')).reverse
  have hrun : run = List.replicate run.length 's' := by
    refine List.eq_replicate_iff.mpr ⟨rfl, fun c hc => ?_⟩
    have hunit := List.mem_takeWhile_imp (List.mem_reverse.mp hc)
    exact eq_of_beq hunit
  refine ⟨run.length, ?_⟩
  rw [← hrun, dropUnit, ← List.reverse_append, List.takeWhile_append_dropWhile,
    List.reverse_reverse]

/-- A number is read just from the values that are one with units behind it. -/
theorem number?_eq_some_iff {bound : Nat} (hbound : 0 < bound) {value : String} {n : Nat} :
    number? bound value = some n ↔ IsNumber bound value n := by
  unfold number? IsNumber
  rw [Text.Decimal.bounded?_eq_some_iff, Nat.le_sub_one_iff_lt hbound]
  constructor
  · rintro ⟨hnumeral, hlt⟩
    obtain ⟨units, heq⟩ := exists_dropUnit_append (Text.trim value).toList
    exact ⟨_, units, by rw [heq]; exact Text.padded_trim value, hnumeral, hlt⟩
  · rintro ⟨numeral, units, hpadded, hnumeral, hlt⟩
    have hplain : ∀ c ∈ numeral ++ List.replicate units 's', isBlank c = false := by
      intro c hc
      rcases List.mem_append.mp hc with hc | hc
      · exact (hnumeral.plain c hc).1
      · rw [List.eq_of_mem_replicate hc]
        decide
    have hdrop : dropUnit (numeral ++ List.replicate units 's') = numeral :=
      Text.reverse_dropWhile_append (fun c hc => (hnumeral.plain c hc).2)
        fun c hc => beq_iff_eq.mpr (List.eq_of_mem_replicate hc)
    rw [Text.toList_trim_of_padded hpadded hplain, hdrop]
    exact ⟨hnumeral, hlt⟩

example : number? portBound " +8080s " = some 8080 := by decide

/-- A number is read exactly where a bare one stands. -/
theorem bareNumber?_eq_some_iff {bound : Nat} (hbound : 0 < bound) {value : String} {n : Nat} :
    bareNumber? bound value = some n ↔ IsBareNumber bound value n := by
  unfold bareNumber? IsBareNumber
  rw [Text.Decimal.bounded?_eq_some_iff, Nat.le_sub_one_iff_lt hbound]
  constructor
  · exact fun ⟨hnumeral, hlt⟩ => ⟨_, Text.padded_trim value, hnumeral, hlt⟩
  · rintro ⟨numeral, hpadded, hnumeral, hlt⟩
    rw [Text.toList_trim_of_padded hpadded fun c hc => (hnumeral.plain c hc).1]
    exact ⟨hnumeral, hlt⟩

/-! ## Words -/

/-- The words for a position. -/
def wordsFor (on : Bool) : List String :=
  if on then wordsForOn else wordsForOff

/-- The values that are a word for a position, in any letter case. -/
def IsSwitch (value : String) (on : Bool) : Prop :=
  ∃ word, Padded value.toList word ∧ Http.lower (String.ofList word) ∈ wordsFor on

/-- No blank stands in a word for yes or no. -/
theorem not_blank_of_lower_mem {word : List Char} {on : Bool}
    (h : Http.lower (String.ofList word) ∈ wordsFor on) : ∀ c ∈ word, isBlank c = false := by
  have hwords : ∀ text ∈ wordsFor on, text.toList.all (isBlank · = false) := by
    cases on <;> decide
  intro c hc
  rw [← Http.isBlank_lowerChar]
  refine of_decide_eq_true (List.all_eq_true.mp (hwords _ h) _ ?_)
  simpa [Http.lower] using ⟨c, hc, rfl⟩

/-- A position is read just from the values that are a word for it. -/
theorem switch?_eq_some_iff {value : String} {on : Bool} :
    switch? value = some on ↔ IsSwitch value on := by
  have hcore : IsSwitch value on ↔ Http.lower (Text.trim value) ∈ wordsFor on := by
    constructor
    · rintro ⟨word, hpadded, hword⟩
      have htrim := Text.toList_trim_of_padded hpadded (not_blank_of_lower_mem hword)
      rwa [← htrim, String.ofList_toList] at hword
    · intro hword
      exact ⟨_, Text.padded_trim value, by rwa [String.ofList_toList]⟩
  have hapart : ∀ word ∈ wordsForOn, word ∉ wordsForOff := by decide
  rw [hcore]
  unfold switch? wordsFor
  simp only [List.contains_iff_mem]
  split
  · next hon => cases on <;> simp [hon, hapart]
  · next hon => cases on <;> simp [hon]

/-- The values that name a backend. -/
inductive IsBackend (value : String) : Backend → Prop where
  | memory (h : Padded value.toList "memory".toList) : IsBackend value .memory
  | redis (h : Padded value.toList "redis".toList) : IsBackend value .redis

/-- A backend is read just from the values that name it. -/
theorem backend?_eq_some_iff {value : String} {b : Backend} :
    backend? value = some b ↔ IsBackend value b := by
  have hword : ∀ word : String, word.toList.all (isBlank · = false) →
      (Text.trim value = word ↔ Padded value.toList word.toList) := by
    intro word hall
    have hplain : ∀ c ∈ word.toList, isBlank c = false := by simpa using hall
    rw [← String.toList_inj, Text.toList_trim_eq_iff hplain]
  have hmemory := hword "memory" (by decide)
  have hredis := hword "redis" (by decide)
  have hcases : IsBackend value b ↔
      (b = .memory ∧ Text.trim value = "memory") ∨ (b = .redis ∧ Text.trim value = "redis") := by
    rw [hmemory, hredis]
    constructor
    · rintro (h | h)
      · exact .inl ⟨rfl, h⟩
      · exact .inr ⟨rfl, h⟩
    · rintro (⟨rfl, h⟩ | ⟨rfl, h⟩)
      · exact .memory h
      · exact .redis h
  rw [hcases]
  simp only [backend?]
  split
  · next h => cases b <;> simp [h]
  · next h =>
      split
      · next h' => cases b <;> simp [h']
      · next h' => simp [h, h']

/-! ## Methods -/

/-- The items of a list of methods, and the methods they name.  Items of blanks only name
none. -/
inductive Lists : List (List Char) → List Http.Method → Prop where
  | nil : Lists [] []
  | blank {item : List Char} {items : List (List Char)} {ms : List Http.Method}
      (hitem : ∀ c ∈ item, isBlank c) (hitems : Lists items ms) : Lists (item :: items) ms
  | token {item token : List Char} {items : List (List Char)} {ms : List Http.Method}
      (hitem : Padded item token) (hne : token ≠ []) (htoken : ∀ c ∈ token, Http.isTokenChar c)
      (hitems : Lists items ms) :
      Lists (item :: items) (⟨Http.upper (String.ofList token)⟩ :: ms)

/-- The values whose items, between commas, name methods. -/
def IsMethods (value : String) (ms : List Http.Method) : Prop :=
  ∃ items, value.toList = Text.join ',' items ∧ Lists items ms

/-- An item that is blank or a token with blanks around it has no comma. -/
theorem Lists.notMem_comma {items : List (List Char)} {ms : List Http.Method}
    (h : Lists items ms) : ∀ item ∈ items, ',' ∉ item := by
  have hblank : isBlank ',' = false := by decide
  induction h with
  | nil => simp
  | blank hitem hitems ih =>
      refine List.forall_mem_cons.mpr ⟨fun hmem => ?_, ih⟩
      simp [hitem ',' hmem] at hblank
  | token hitem hne htoken hitems ih =>
      refine List.forall_mem_cons.mpr ⟨fun hmem => ?_, ih⟩
      obtain ⟨before, after, rfl, hbefore, hafter⟩ := hitem
      have hcomma : Http.isTokenChar ',' = false := by decide
      simp only [List.mem_append] at hmem
      rcases hmem with (hmem | hmem) | hmem
      · simp [hbefore ',' hmem] at hblank
      · simp [htoken ',' hmem] at hcomma
      · simp [hafter ',' hmem] at hblank

/-- The methods that items name. -/
def itemMethods? (items : List (List Char)) : Option (List Http.Method) :=
  ((items.map fun item => Text.trim (String.ofList item)).filter (· ≠ "")).mapM fun item =>
    Http.Method.ofText? (Http.upper item)

/-- The methods of a list are those of its items, blank ones left out. -/
theorem itemMethods?_cons (item : List Char) (items : List (List Char)) :
    itemMethods? (item :: items) =
      if Text.trim (String.ofList item) = "" then itemMethods? items
      else
        (Http.Method.ofText? (Http.upper (Text.trim (String.ofList item)))).bind fun m =>
          (itemMethods? items).map (m :: ·) := by
  unfold itemMethods?
  by_cases hblank : Text.trim (String.ofList item) = ""
  · simp [hblank]
  · rw [List.map_cons, List.filter_cons_of_pos (by simpa using hblank), List.mapM_cons,
      if_neg hblank]
    simp only [Option.map_eq_bind]
    rfl

/-- A method is read from an item just where the item is a token with blanks around it. -/
theorem ofText?_upper_trim_eq_some_iff {item : List Char} {m : Http.Method} :
    Http.Method.ofText? (Http.upper (Text.trim (String.ofList item))) = some m ↔
      ∃ token, Padded item token ∧ token ≠ [] ∧ (∀ c ∈ token, Http.isTokenChar c) ∧
        m = ⟨Http.upper (String.ofList token)⟩ := by
  have hpadded := Text.padded_trim (String.ofList item)
  rw [String.toList_ofList] at hpadded
  unfold Http.Method.ofText?
  rw [Http.isToken_upper]
  constructor
  · intro h
    rw [Option.ite_none_right_eq_some] at h
    obtain ⟨htoken, hm⟩ := h
    simp only [Http.isToken, Bool.and_eq_true, Bool.not_eq_true', List.isEmpty_eq_false_iff,
      List.all_eq_true] at htoken
    refine ⟨_, hpadded, htoken.1, htoken.2, ?_⟩
    rw [String.ofList_toList]
    exact (Option.some.inj hm).symm
  · rintro ⟨token, hitem, hne, htoken, rfl⟩
    have htrim : Text.trim (String.ofList item) = String.ofList token := by
      rw [← String.toList_inj, String.toList_ofList]
      exact Text.toList_trim_of_padded (by rwa [String.toList_ofList])
        fun c hc => Http.not_blank_of_isTokenChar (htoken c hc)
    have hisToken : Http.isToken (String.ofList token) := by
      simpa [Http.isToken, hne] using htoken
    rw [htrim, if_pos hisToken]

/-- Methods are read from items just where the items list them. -/
theorem itemMethods?_eq_some_iff {items : List (List Char)} {ms : List Http.Method} :
    itemMethods? items = some ms ↔ Lists items ms := by
  induction items generalizing ms with
  | nil =>
      constructor
      · intro h
        obtain rfl : [] = ms := Option.some.inj h
        exact .nil
      · rintro ⟨⟩
        rfl
  | cons item items ih =>
      rw [itemMethods?_cons]
      constructor
      · intro h
        split at h
        · next hblank => exact .blank (Text.trim_eq_empty_iff.mp hblank) (ih.mp h)
        · obtain ⟨m, hm, hrest⟩ := Option.bind_eq_some_iff.mp h
          obtain ⟨rest, htail, rfl⟩ := Option.map_eq_some_iff.mp hrest
          obtain ⟨token, hitem, hne, htoken, rfl⟩ := ofText?_upper_trim_eq_some_iff.mp hm
          exact .token hitem hne htoken (ih.mp htail)
      · rintro (_ | ⟨hblank, hrest⟩ | ⟨hitem, hne, htoken, hrest⟩)
        · rw [if_pos (Text.trim_eq_empty_iff.mpr hblank)]
          exact ih.mpr hrest
        · have hfull : Text.trim (String.ofList item) ≠ "" := by
            rw [Ne, Text.trim_eq_empty_iff]
            obtain ⟨before, after, rfl, -, -⟩ := hitem
            obtain ⟨c, token, rfl⟩ := List.exists_cons_of_ne_nil hne
            intro hblank
            have := hblank c (by simp)
            simp [Http.not_blank_of_isTokenChar (htoken c (by simp))] at this
          rw [if_neg hfull, ofText?_upper_trim_eq_some_iff.mpr ⟨_, hitem, hne, htoken, rfl⟩,
            ih.mpr hrest]
          rfl

/-- Methods are read just from the values that list them. -/
theorem methods?_eq_some_iff {value : String} {ms : List Http.Method} :
    methods? value = some ms ↔ IsMethods value ms := by
  have hread : methods? value = itemMethods? (Text.splitOn ',' value.toList) := rfl
  rw [hread]
  constructor
  · exact fun h => ⟨_, (Text.join_splitOn ',' value.toList).symm, itemMethods?_eq_some_iff.mp h⟩
  · rintro ⟨items, heq, hlists⟩
    rw [heq]
    by_cases hnone : items = []
    · subst hnone
      cases hlists
      rfl
    · rw [Text.splitOn_join hnone hlists.notMem_comma]
      exact itemMethods?_eq_some_iff.mpr hlists

example : methods? " get,, Post " = some [.get, .post] := by decide

end Config

end Turnstile
