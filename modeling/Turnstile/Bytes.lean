/-!
# Byte strings

Every body, header value and stored record is a list of bytes.  This module
holds the passage between bytes and text, and the few written forms of bytes
that the other modules share.

Main results:

- `Bytes.text?_ofText`: the UTF-8 bytes of a text read back as that text.
- `Bytes.hex_injective`: hexadecimal digits stand for one byte string only.
- `Bytes.bigEndian_inj`: a number that fits its width is told by its bytes.
-/

namespace Turnstile

/-- A byte string. -/
abbrev Bytes := List UInt8

namespace Bytes

/-! ## Text -/

/-- The UTF-8 bytes of a text. -/
def ofText (text : String) : Bytes :=
  text.toByteArray.data.toList

/-- The text that the bytes are the UTF-8 form of, if there is one. -/
def text? (bytes : Bytes) : Option String :=
  String.fromUTF8? ⟨bytes.toArray⟩

@[simp]
theorem text?_ofText (text : String) : text? (ofText text) = some text := by
  have h : (⟨text.toByteArray.data.toList.toArray⟩ : ByteArray) = text.toByteArray := by
    simp
  unfold text? ofText
  rw [h]
  simp [String.fromUTF8?, text.isValidUTF8, String.fromUTF8]

theorem text?_eq_some_iff {bytes : Bytes} {text : String} :
    text? bytes = some text ↔ bytes = ofText text := by
  constructor
  · intro h
    unfold text? String.fromUTF8? at h
    split at h
    · obtain rfl := Option.some.inj h
      simp [ofText, String.fromUTF8]
    · exact nomatch h
  · rintro rfl
    exact text?_ofText text

theorem ofText_injective {a b : String} (h : ofText a = ofText b) : a = b := by
  have := congrArg text? h
  simpa using this

/-! ## Written forms -/

/-- The sixteen lower-case hexadecimal digits. -/
def hexDigit (n : Nat) : Char :=
  if n < 10 then Char.ofNat (48 + n) else Char.ofNat (87 + n)

/-- Two lower-case hexadecimal digits for each byte. -/
def hex (bytes : Bytes) : String :=
  String.ofList (bytes.flatMap fun b => [hexDigit (b.toNat / 16), hexDigit (b.toNat % 16)])

theorem hexDigit_inj {m n : Nat} (hm : m < 16) (hn : n < 16) (h : hexDigit m = hexDigit n) :
    m = n := by
  have hdigits : ∀ m < 16, ∀ n < 16, hexDigit m = hexDigit n → m = n := by decide
  exact hdigits m hm n hn h

theorem hex_injective {a b : Bytes} (h : hex a = hex b) : a = b := by
  have hdigits := String.ofList_injective h
  clear h
  induction a generalizing b with
  | nil =>
      cases b with
      | nil => rfl
      | cons y b => simp at hdigits
  | cons x a ih =>
      cases b with
      | nil => simp at hdigits
      | cons y b =>
          simp only [List.flatMap_cons, List.cons_append, List.nil_append, List.cons.injEq]
            at hdigits
          have hx := x.toNat_lt
          have hy := y.toNat_lt
          have hhigh := hexDigit_inj (by omega) (by omega) hdigits.1
          have hlow := hexDigit_inj (by omega) (by omega) hdigits.2.1
          have hxy : x = y := UInt8.toNat_inj.1 (by omega)
          rw [hxy, ih hdigits.2.2]

/-- The last `width` bytes of a number, the most significant first. -/
def bigEndian (width n : Nat) : Bytes :=
  (List.range width).reverse.map fun i => UInt8.ofNat (n >>> (8 * i))

@[simp]
theorem length_bigEndian (width n : Nat) : (bigEndian width n).length = width := by
  simp [bigEndian]

theorem bigEndian_succ (width n : Nat) :
    bigEndian (width + 1) n = UInt8.ofNat (n >>> (8 * width)) :: bigEndian width n := by
  simp [bigEndian, List.range_succ]

/-- How many numbers can be written in so many bytes. -/
def capacity : Nat → Nat
  | 0 => 1
  | width + 1 => capacity width * 256

theorem shiftRight_eq_div_capacity (n width : Nat) : n >>> (8 * width) = n / capacity width := by
  induction width with
  | zero => simp [capacity]
  | succ width ih =>
      have hbyte : n >>> (8 * width) >>> 8 = n >>> (8 * width) / 256 :=
        Nat.shiftRight_eq_div_pow _ 8
      rw [Nat.mul_succ, Nat.shiftRight_add, hbyte, ih, Nat.div_div_eq_div_mul, capacity]

/-- The bytes tell the number up to what does not fit their width. -/
theorem mod_eq_of_bigEndian {width m n : Nat} (h : bigEndian width m = bigEndian width n) :
    m % capacity width = n % capacity width := by
  induction width with
  | zero => simp only [capacity, Nat.mod_one]
  | succ width ih =>
      rw [bigEndian_succ, bigEndian_succ] at h
      obtain ⟨hfirst, hrest⟩ := List.cons.inj h
      have hbyte := congrArg UInt8.toNat hfirst
      simp only [UInt8.toNat_ofNat', shiftRight_eq_div_capacity] at hbyte
      have hdigit : m / capacity width % 256 = n / capacity width % 256 := hbyte
      rw [capacity, Nat.mod_mul, Nat.mod_mul, ih hrest, hdigit]

theorem bigEndian_inj {width m n : Nat} (hm : m < capacity width) (hn : n < capacity width)
    (h : bigEndian width m = bigEndian width n) : m = n := by
  have hmod := mod_eq_of_bigEndian h
  rwa [Nat.mod_eq_of_lt hm, Nat.mod_eq_of_lt hn] at hmod

end Bytes

end Turnstile
