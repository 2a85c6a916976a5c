import Turnstile.Proofs.Time.Calendar

/-!
# Written instants read back

An instant without a leap second is read back from its written form exactly.
The numbers of the form are taken one by one: each is digits of a bounded count
before something that is no digit, so that its reader takes all of them.

Main results:

- Theorem `number?_append`: a reader of a number takes the digits before a mark.
- Theorem `read?_render`: an instant that was written is read back.
-/

namespace Turnstile.Rfc3339

open Text.Decimal (digits padded isDigit valueFrom)

/-! ## Digits -/

/-- Characters that do not go on with a digit. -/
def EndsDigits (cs : List Char) : Prop :=
  ∀ c ∈ cs.head?, isDigit c = false

/-- Leading zeros change no value. -/
theorem valueFrom_replicate_zero (k : Nat) (cs : List Char) :
    valueFrom 0 (List.replicate k '0' ++ cs) = valueFrom 0 cs := by
  rw [Text.Decimal.valueFrom_append]
  congr 1
  induction k with
  | zero => rfl
  | succ k ih =>
      rw [List.replicate_succ]
      exact ih

/-- A number that is padded has the same value. -/
theorem valueFrom_padded (width n : Nat) : valueFrom 0 (padded width n) = n := by
  unfold padded
  rw [valueFrom_replicate_zero, Text.Decimal.valueFrom_digits]

/-- A padded number is made of digits. -/
theorem all_isDigit_padded (width n : Nat) : (padded width n).all isDigit = true := by
  unfold padded
  rw [List.all_append, Text.Decimal.all_isDigit_digits, Bool.and_true]
  rw [List.all_eq_true]
  intro c hc
  rw [(List.mem_replicate.1 hc).2]
  decide

/-- It has at least one of them. -/
theorem padded_ne_nil (width n : Nat) : padded width n ≠ [] := by
  unfold padded
  intro h
  exact Text.Decimal.digits_ne_nil n (List.append_eq_nil_iff.1 h).2

/-- A number below a power of ten has no more digits than its exponent. -/
theorem length_digits_le {k n : Nat} (hk : 0 < k) (h : n < Nat.pow 10 k) :
    (digits n).length ≤ k := by
  induction k generalizing n with
  | zero => exact absurd hk (Nat.lt_irrefl 0)
  | succ k ih =>
      rw [digits]
      by_cases hsmall : n < 10
      · simp [hsmall]
      · rw [if_neg hsmall, List.length_append, List.length_singleton]
        have hpos : 0 < k := by
          rcases Nat.eq_zero_or_pos k with rfl | hpos
          · exact absurd h hsmall
          · exact hpos
        have hdiv : n / 10 < Nat.pow 10 k := by
          have hnext : n < Nat.pow 10 k * 10 := h
          omega
        exact Nat.succ_le_succ (ih hpos hdiv)

/-- A number that fits its width is padded to it. -/
theorem length_padded {width n : Nat} (hwidth : 0 < width) (h : n < Nat.pow 10 width) :
    (padded width n).length = width := by
  have hle := length_digits_le hwidth h
  unfold padded
  rw [List.length_append, List.length_replicate]
  omega

/-- The digits of a number are all that stand before what ends them. -/
theorem takeWhile_append_digits {ds rest : List Char} (hall : ds.all isDigit = true)
    (hrest : EndsDigits rest) : (ds ++ rest).takeWhile isDigit = ds := by
  induction ds with
  | nil =>
      cases rest with
      | nil => rfl
      | cons c rest =>
          have hc := hrest c rfl
          simp [hc]
  | cons d ds ih =>
      simp only [List.all_cons, Bool.and_eq_true] at hall
      simp [hall.1, ih hall.2]

/-- A reader of a number takes the digits before a mark. -/
theorem number?_append {width : Nat} {ds rest : List Char} (hne : ds ≠ [])
    (hall : ds.all isDigit = true) (hlen : ds.length ≤ width) (hrest : EndsDigits rest) :
    number? width (ds ++ rest) = some (valueFrom 0 ds, rest) := by
  have htake : ((ds ++ rest).take width).takeWhile isDigit = ds := by
    rw [List.take_append, List.take_of_length_le hlen]
    apply takeWhile_append_digits hall
    intro c hc
    apply hrest c
    cases rest with
    | nil => simp at hc
    | cons r rest =>
        cases hw : width - ds.length with
        | zero =>
            rw [hw] at hc
            simp at hc
        | succ k =>
            rw [hw] at hc
            simpa using hc
  unfold number?
  rw [htake]
  have hnonempty : ds.isEmpty = false := by
    cases ds with
    | nil => exact absurd rfl hne
    | cons d ds => rfl
  simp [hnonempty]

/-- A digit is not blank, and no mark. -/
theorem not_blank_of_isDigit {c : Char} (h : isDigit c = true) : Text.isBlank c = false := by
  unfold isDigit at h
  simp only [Bool.and_eq_true, decide_eq_true_eq] at h
  unfold Text.isBlank
  simp only [Bool.or_eq_false_iff, Bool.and_eq_false_iff, decide_eq_false_iff_not,
    beq_eq_false_iff_ne, ne_eq]
  omega

/-- Nothing is trimmed before a character that is not blank. -/
theorem trimLeft_of_head {c : Char} {cs : List Char} (h : Text.isBlank c = false) :
    Text.trimLeft (c :: cs) = c :: cs := by
  simp [Text.trimLeft, h]

/-- Nothing is trimmed before digits. -/
theorem trimLeft_digits {ds : List Char} (rest : List Char) (hne : ds ≠ [])
    (hall : ds.all isDigit = true) : Text.trimLeft (ds ++ rest) = ds ++ rest := by
  cases ds with
  | nil => exact absurd rfl hne
  | cons d ds =>
      simp only [List.all_cons, Bool.and_eq_true] at hall
      exact trimLeft_of_head (not_blank_of_isDigit hall.1)

/-! ## Parts of an instant -/

/-- A number below 100 is read back from its two digits. -/
theorem twoDigits?_padded {n : Nat} {rest : List Char} (h : n < 100) (hrest : EndsDigits rest) :
    twoDigits? (padded 2 n ++ rest) = some (n, rest) := by
  have hne := padded_ne_nil 2 n
  have hall := all_isDigit_padded 2 n
  have hlen : (padded 2 n).length ≤ 2 := Nat.le_of_eq (length_padded (by decide) h)
  unfold twoDigits?
  rw [trimLeft_digits rest hne hall, number?_append hne hall hlen hrest, valueFrom_padded]

/-- A mark is read where it stands. -/
theorem mark?_cons {c : Char} (rest : List Char) (h : Text.isBlank c = false) :
    mark? c (c :: rest) = some rest := by
  unfold mark?
  rw [trimLeft_of_head h]
  simp

/-- A digit is none of the signs. -/
theorem year?_digits {ds : List Char} (rest : List Char) (hne : ds ≠ [])
    (hall : ds.all isDigit = true) :
    year? (ds ++ rest) = (number? 4 (ds ++ rest)).map fun r => ((r.1 : Int), r.2) := by
  unfold year?
  rw [trimLeft_digits rest hne hall]
  cases ds with
  | nil => exact absurd rfl hne
  | cons d ds =>
      simp only [List.all_cons, Bool.and_eq_true] at hall
      rw [List.cons_append]
      split
      · next heq =>
          rw [List.cons.injEq] at heq
          rw [heq.1] at hall
          exact absurd hall.1 (by decide)
      · next heq =>
          rw [List.cons.injEq] at heq
          rw [heq.1] at hall
          exact absurd hall.1 (by decide)
      · rfl

/-- A year after a minus is negative. -/
theorem year?_minus (rest : List Char) :
    year? ('-' :: rest) = (number? rest.length rest).map fun r => (-(r.1 : Int), r.2) := by
  unfold year?
  rw [trimLeft_of_head (by decide)]
  rfl

/-- A year after a plus may have any number of digits. -/
theorem year?_plus (rest : List Char) :
    year? ('+' :: rest) = (number? rest.length rest).map fun r => ((r.1 : Int), r.2) := by
  unfold year?
  rw [trimLeft_of_head (by decide)]
  rfl

/-- A year reads back. -/
theorem year?_renderYear (year : Int) {rest : List Char} (hrest : EndsDigits rest) :
    year? (renderYear year ++ rest) = some (year, rest) := by
  unfold renderYear
  by_cases hplain : 0 ≤ year ∧ year ≤ 9999
  · have hne := padded_ne_nil 4 year.toNat
    have hall := all_isDigit_padded 4 year.toNat
    have hsmall : year.toNat < 10000 := by omega
    have hlen : (padded 4 year.toNat).length ≤ 4 := Nat.le_of_eq (length_padded (by decide) hsmall)
    have hback : (year.toNat : Int) = year := by omega
    rw [if_pos hplain, year?_digits rest hne hall, number?_append hne hall hlen hrest,
      valueFrom_padded]
    simp [hback]
  · have hne := padded_ne_nil 4 year.natAbs
    have hall := all_isDigit_padded 4 year.natAbs
    have hlen : (padded 4 year.natAbs).length ≤ (padded 4 year.natAbs ++ rest).length := by
      rw [List.length_append]
      omega
    have hnumber := number?_append hne hall hlen hrest
    rw [valueFrom_padded] at hnumber
    rw [if_neg hplain]
    by_cases hneg : year < 0
    · have hback : -(year.natAbs : Int) = year := by omega
      rw [if_pos hneg, List.cons_append, year?_minus, hnumber, Option.map_some, hback]
    · have hback : (year.natAbs : Int) = year := by omega
      rw [if_neg hneg, List.cons_append, year?_plus, hnumber, Option.map_some, hback]

/-- Up to nine digits after the point are read as nanoseconds. -/
theorem fraction?_digits {ds rest : List Char} (hne : ds ≠ []) (hall : ds.all isDigit = true)
    (hlen : ds.length ≤ 9) (hrest : EndsDigits rest) :
    fraction? ('.' :: (ds ++ rest)) = some (valueFrom 0 ds * Nat.pow 10 (9 - ds.length), rest) := by
  have hnonempty : ds.isEmpty = false := by
    cases ds with
    | nil => exact absurd rfl hne
    | cons d ds => rfl
  simp only [fraction?, takeWhile_append_digits hall hrest, hnonempty, List.take_of_length_le hlen,
    List.drop_left, Bool.false_eq_true, if_false]

/-- The part of a second after the point reads back. -/
theorem fraction?_renderFraction {nanos : Nat} {rest : List Char} (h : nanos < 1_000_000_000)
    (hrest : EndsDigits rest) (hpoint : rest.head? ≠ some '.') :
    fraction? (renderFraction nanos ++ rest) = some (nanos, rest) := by
  have hgroup : ∀ {width n : Nat}, 0 < width → width ≤ 9 → n < Nat.pow 10 width →
      fraction? (('.' :: padded width n) ++ rest) = some (n * Nat.pow 10 (9 - width), rest) := by
    intro width n hpos hle hn
    have hlen := length_padded hpos hn
    have hshort : (padded width n).length ≤ 9 := by omega
    rw [List.cons_append, fraction?_digits (padded_ne_nil width n) (all_isDigit_padded width n)
      hshort hrest, valueFrom_padded, hlen]
  unfold renderFraction
  by_cases hzero : nanos = 0
  · rw [if_pos hzero, hzero, List.nil_append]
    unfold fraction?
    split
    · exact absurd rfl hpoint
    · rfl
  · rw [if_neg hzero]
    by_cases hmillis : nanos % 1000000 = 0
    · have hsmall : nanos / 1000000 < 1000 := by omega
      rw [if_pos hmillis, hgroup (by decide) (by decide) hsmall]
      have hback : nanos / 1000000 * Nat.pow 10 (9 - 3) = nanos := by
        have hpow : Nat.pow 10 (9 - 3) = 1000000 := rfl
        rw [hpow]
        omega
      rw [hback]
    · rw [if_neg hmillis]
      by_cases hmicros : nanos % 1000 = 0
      · have hsmall : nanos / 1000 < 1000000 := by omega
        rw [if_pos hmicros, hgroup (by decide) (by decide) hsmall]
        have hback : nanos / 1000 * Nat.pow 10 (9 - 6) = nanos := by
          have hpow : Nat.pow 10 (9 - 6) = 1000 := rfl
          rw [hpow]
          omega
        rw [hback]
      · rw [if_neg hmicros, hgroup (by decide) (by decide) h]
        have hback : nanos * Nat.pow 10 (9 - 9) = nanos := by
          have hpow : Nat.pow 10 (9 - 9) = 1 := rfl
          rw [hpow, Nat.mul_one]
        rw [hback]

/-! ## Whole instants -/

/-- The instants that can be written and are no leap seconds. -/
structure Writable (t : Timestamp) : Prop where
  earliest : Timestamp.earliest.seconds ≤ t.seconds
  latest : t.seconds ≤ Timestamp.latest.seconds
  nanos : t.nanos < 1_000_000_000

/-- The month and day of a valid date have two digits at most. -/
theorem month_day_lt {d : Date} (h : d.isValid = true) : d.month < 100 ∧ d.day < 100 := by
  unfold Date.isValid Date.daysInMonth at h
  simp only [Bool.and_eq_true, decide_eq_true_eq] at h
  rcases h with ⟨hlow, hhigh⟩
  split at hhigh
  · split at hhigh <;> omega
  · split at hhigh
    · omega
    · split at hhigh <;> omega

/-- The instant of a day and a time of the day. -/
theorem instant?_ofDayNumber {t : Timestamp} (ht : Writable t) :
    instant? (Date.ofDayNumber (t.seconds / 86400)) ((t.seconds % 86400).toNat / 3600)
      ((t.seconds % 86400).toNat / 60 % 60) ((t.seconds % 86400).toNat % 60) t.nanos 0 =
      some t := by
  have hearliest : Timestamp.earliest.seconds = -8334601228800 := rfl
  have hlatest : Timestamp.latest.seconds = 8210266876799 := rfl
  have hlow := ht.earliest
  have hhigh := ht.latest
  have hvalid := Date.isValid_ofDayNumber (t.seconds / 86400)
  have hyear := Date.year_ofDayNumber (n := t.seconds / 86400) (by omega) (by omega)
  have hbounds : minYear ≤ (Date.ofDayNumber (t.seconds / 86400)).year ∧
      (Date.ofDayNumber (t.seconds / 86400)).year ≤ maxYear ∧
      (Date.ofDayNumber (t.seconds / 86400)).isValid = true ∧
      (t.seconds % 86400).toNat / 3600 ≤ 23 ∧ (t.seconds % 86400).toNat / 60 % 60 ≤ 59 ∧
      (t.seconds % 86400).toNat % 60 ≤ 60 ∧ (-86400 : Int) < 0 ∧ (0 : Int) < 86400 :=
    ⟨hyear.1, hyear.2, hvalid, by omega, by omega, by omega, by omega, by omega⟩
  have hsecond : (t.seconds % 86400).toNat % 60 ≠ 60 := by omega
  have hseconds : t.seconds / 86400 * 86400 +
      (((t.seconds % 86400).toNat / 3600 * 3600 + (t.seconds % 86400).toNat / 60 % 60 * 60 +
        ((t.seconds % 86400).toNat % 60 - 0) : Nat) : Int) - 0 = t.seconds := by
    omega
  unfold instant?
  rw [if_pos hbounds]
  simp only [if_neg hsecond, Date.dayNumber_ofDayNumber, hseconds]
  rw [if_pos ⟨hlow, hhigh⟩]
  simp

/-- An instant that was written is read back. -/
theorem read?_render {t : Timestamp} (ht : Writable t) : read? (render t) = some t := by
  have hleap := ht.nanos
  have hdate := month_day_lt (Date.isValid_ofDayNumber (t.seconds / 86400))
  have hends : ∀ {c : Char} {cs : List Char}, isDigit c = false → EndsDigits (c :: cs) := by
    intro c cs hc c' hc'
    rw [List.head?_cons, Option.mem_some_iff] at hc'
    rw [← hc']
    exact hc
  -- What follows the seconds is a point or the letter at the end.
  have hfraction : EndsDigits (renderFraction t.nanos ++ ['Z']) := by
    unfold renderFraction
    split
    · exact hends (by decide)
    · split
      · exact hends (by decide)
      · split <;> exact hends (by decide)
  unfold read? render
  rw [String.toList_ofList]
  unfold renderChars readChars?
  simp only [if_pos hleap, Nat.add_zero, Nat.zero_mul, Nat.sub_zero, List.append_assoc,
    List.cons_append]
  rw [year?_renderYear _ (hends (by decide))]
  simp only [Option.bind_eq_bind, Option.bind_some]
  rw [mark?_cons _ (by decide)]
  simp only [Option.bind_some]
  rw [twoDigits?_padded hdate.1 (hends (by decide))]
  simp only [Option.bind_some]
  rw [mark?_cons _ (by decide)]
  simp only [Option.bind_some]
  rw [twoDigits?_padded hdate.2 (hends (by decide))]
  simp only [Option.bind_some]
  rw [twoDigits?_padded (by omega) (hends (by decide))]
  simp only [Option.bind_some]
  rw [mark?_cons _ (by decide)]
  simp only [Option.bind_some]
  rw [twoDigits?_padded (by omega) (hends (by decide))]
  simp only [Option.bind_some]
  rw [mark?_cons _ (by decide)]
  simp only [Option.bind_some]
  rw [twoDigits?_padded (by omega) hfraction]
  simp only [Option.bind_some]
  rw [fraction?_renderFraction hleap (hends (by decide)) (by decide)]
  have hzone : offset? (Text.trimLeft ['Z']) = some (0, []) := rfl
  have hempty : (Text.trimLeft []).isEmpty = true := rfl
  simp only [Option.bind_some, hzone, hempty, if_true]
  exact instant?_ofDayNumber ht

end Turnstile.Rfc3339
