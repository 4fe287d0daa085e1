import ExtendedQuery.Bytes
import ExtendedQuery.Text.Keyword
import Mathlib.Data.List.Basic
import Mathlib.Data.UInt

/-!
# The UTF-8 form of a text, byte by byte

A character of ASCII is one byte, its own number; the bytes of any other character are all `0x80` or
more (`utf8Char_cases`). The characters can be read back from the bytes one after the other
(`utf8Char_append_inj`), so a text that starts with another one does so in bytes as well, and the other
way round (`utf8_isPrefix`).
-/

namespace ExtendedQuery.Text

def utf8 (text : Text) : Bytes := Bytes.ofString (String.ofList text)

abbrev utf8Char (c : Char) : Bytes := String.utf8EncodeChar c

theorem utf8_eq_flatMap (text : Text) : utf8 text = text.flatMap utf8Char := by
  simp [utf8, Bytes.ofString, List.utf8Encode]

@[simp] theorem utf8_nil : utf8 [] = [] := by simp [utf8_eq_flatMap]

@[simp] theorem utf8_cons (c : Char) (text : Text) : utf8 (c :: text) = utf8Char c ++ utf8 text := by
  simp [utf8_eq_flatMap]

@[simp] theorem utf8_append (a b : Text) : utf8 (a ++ b) = utf8 a ++ utf8 b := by
  simp [utf8_eq_flatMap]

theorem byteLength_reverse (text : Text) : byteLength text.reverse = byteLength text := by
  induction text with
  | nil => rfl
  | cons c text ih =>
    rw [List.reverse_cons, byteLength_append, ih, byteLength_cons, byteLength_cons, byteLength_nil]
    omega

@[simp] theorem length_utf8 (text : Text) : (utf8 text).length = byteLength text := by
  induction text with
  | nil => simp
  | cons c text ih => simp [ih]

def Wide (bytes : Bytes) : Prop := ∀ b ∈ bytes, 0x80 ≤ b

theorem wide_of_lt {c : Char} (above : 0x80 ≤ c.toNat) : Wide (utf8Char c) := by
  have big : ¬ c.val.toNat ≤ 0x7f := Nat.not_le_of_lt above
  have lead (n base m : Nat) (low : 0x80 ≤ base) (bound : base + m ≤ 256) (pos : 0 < m) :
      (0x80 : UInt8) ≤ UInt8.ofNat (n % m + base) := by
    have small : n % m < m := Nat.mod_lt n pos
    have fits : n % m + base < UInt8.size := by change _ < 256; omega
    rw [UInt8.le_iff_toNat_le, UInt8.toNat_ofNat_of_lt' fits]
    change 128 ≤ _
    omega
  intro b member
  unfold utf8Char String.utf8EncodeChar at member
  dsimp only at member
  rw [if_neg big] at member
  split_ifs at member <;> simp only [List.mem_cons, List.not_mem_nil, or_false] at member
  · rcases member with rfl | rfl <;> apply lead <;> omega
  · rcases member with rfl | rfl | rfl <;> apply lead <;> omega
  · rcases member with rfl | rfl | rfl | rfl <;> apply lead <;> omega

theorem utf8Char_ascii {c : Char} (below : c.toNat < 0x80) : utf8Char c = [UInt8.ofNat c.toNat] := by
  have small : c.val.toNat ≤ 0x7f := by have : c.val.toNat < 0x80 := below; omega
  unfold utf8Char String.utf8EncodeChar
  dsimp only
  rw [if_pos small]
  rfl

theorem utf8Char_cases (c : Char) :
    (c.toNat < 0x80 ∧ utf8Char c = [UInt8.ofNat c.toNat]) ∨ (0x80 ≤ c.toNat ∧ Wide (utf8Char c)) := by
  by_cases below : c.toNat < 0x80
  · exact .inl ⟨below, utf8Char_ascii below⟩
  · exact .inr ⟨by omega, wide_of_lt (by omega)⟩

theorem utf8Char_append_inj {c d : Char} {x y : Bytes} (h : utf8Char c ++ x = utf8Char d ++ y) :
    c = d ∧ x = y := by
  have decode (c : Char) (x : Bytes) :
      ByteArray.utf8DecodeChar? (utf8Char c ++ x).toByteArray 0 = some c := by
    rw [List.toByteArray_append]
    exact ByteArray.utf8DecodeChar?_utf8EncodeChar_append
  have same : c = d := Option.some.inj (by rw [← decode c x, h, decode d y])
  subst same
  exact ⟨rfl, List.append_cancel_left h⟩

theorem utf8_append_inj {a b : Text} {x : Bytes} (h : utf8 a = utf8 b ++ x) :
    ∃ later, a = b ++ later ∧ x = utf8 later := by
  induction b generalizing a with
  | nil => exact ⟨a, rfl, by simpa using h.symm⟩
  | cons d b ih =>
    cases a with
    | nil => simp at h
    | cons c a =>
      rw [utf8_cons, utf8_cons, List.append_assoc] at h
      obtain ⟨rfl, rest⟩ := utf8Char_append_inj h
      obtain ⟨later, rfl, same⟩ := ih rest
      exact ⟨later, rfl, same⟩

theorem utf8_injective {a b : Text} (h : utf8 a = utf8 b) : a = b := by
  obtain ⟨later, rfl, empty⟩ := utf8_append_inj (x := []) (by simpa using h)
  cases later with
  | nil => simp
  | cons c later => simp at empty

theorem utf8_isPrefix {a b : Text} : utf8 a <+: utf8 b ↔ a <+: b := by
  constructor
  · rintro ⟨x, h⟩
    obtain ⟨later, rfl, -⟩ := utf8_append_inj h.symm
    exact ⟨later, rfl⟩
  · rintro ⟨later, rfl⟩
    exact ⟨utf8 later, (utf8_append a later).symm⟩

abbrev ascii (c : Char) : UInt8 := UInt8.ofNat c.toNat

theorem toNat_ascii {c : Char} (small : c.toNat < 0x80) : (ascii c).toNat = c.toNat :=
  UInt8.toNat_ofNat_of_lt' (Nat.lt_trans small (by decide))

theorem ascii_inj {c d : Char} (hc : c.toNat < 0x80) (hd : d.toNat < 0x80) (h : ascii c = ascii d) :
    c = d := by
  have same := congrArg UInt8.toNat h
  rw [toNat_ascii hc, toNat_ascii hd] at same
  exact Char.ext (UInt32.toNat_inj.1 same)

theorem mem_utf8Char {a c : Char} (small : a.toNat < 0x80) : ascii a ∈ utf8Char c ↔ a = c := by
  rcases utf8Char_cases c with ⟨below, same⟩ | ⟨above, wide⟩
  · rw [same, List.mem_singleton]
    exact ⟨ascii_inj small below, fun h => by rw [h]⟩
  · constructor
    · intro member
      have high := UInt8.le_iff_toNat_le.1 (wide _ member)
      rw [toNat_ascii small] at high
      change 128 ≤ _ at high
      omega
    · rintro rfl; omega

theorem mem_utf8 {a : Char} (small : a.toNat < 0x80) {text : Text} : ascii a ∈ utf8 text ↔ a ∈ text := by
  simp [utf8_eq_flatMap, mem_utf8Char small]

theorem utf8Char_eq_cons (c : Char) : ∃ b bytes, utf8Char c = b :: bytes ∧ Wide bytes := by
  rcases utf8Char_cases c with ⟨-, same⟩ | ⟨-, wide⟩
  · exact ⟨_, [], same, by simp [Wide]⟩
  · cases h : utf8Char c with
    | nil => exact absurd h String.utf8EncodeChar_ne_nil
    | cons b bytes => exact ⟨b, bytes, rfl, fun d member => wide d (by simp [h, member])⟩

theorem Wide.ne_ascii {bytes : Bytes} (wide : Wide bytes) {c : Char} (small : c.toNat < 0x80) :
    ∀ b ∈ bytes, b ≠ ascii c := by
  rintro b member rfl
  have high := UInt8.le_iff_toNat_le.1 (wide _ member)
  rw [toNat_ascii small] at high
  change 128 ≤ _ at high
  omega

theorem head?_utf8 {a : Char} (small : a.toNat < 0x80) {text : Text}
    (h : (utf8 text).head? = some (ascii a)) : text.head? = some a := by
  cases text with
  | nil => simp at h
  | cons c text =>
    rw [utf8_cons, List.head?_append_of_ne_nil _ String.utf8EncodeChar_ne_nil] at h
    rw [(mem_utf8Char small).1 (List.mem_of_head? h)]
    rfl

theorem utf8Char_eq_append {a c : Char} (small : a.toNat < 0x80) {z x w : Bytes} (nonempty : x ≠ [])
    (same : utf8Char c ++ z = x ++ ascii a :: w) : ∃ x', x = utf8Char c ++ x' ∧ z = x' ++ ascii a :: w := by
  obtain ⟨b, bytes, first, wide⟩ := utf8Char_eq_cons c
  cases x with
  | nil => exact absurd rfl nonempty
  | cons d x =>
    rw [first, List.cons_append, List.cons_append, List.cons.injEq] at same
    obtain ⟨rfl, same⟩ := same
    rw [List.append_eq_append_iff] at same
    rcases same with ⟨x', rfl, rest⟩ | ⟨inner, rfl, rest⟩
    · exact ⟨x', by rw [first]; rfl, rest⟩
    · cases inner with
      | nil => exact ⟨[], by rw [first]; simp, by simpa using rest.symm⟩
      | cons e inner =>
        simp only [List.cons_append, List.cons.injEq] at rest
        exact absurd rest.1.symm (wide.ne_ascii small e (by simp))

theorem utf8_eq_append {a : Char} (small : a.toNat < 0x80) {text : Text} {x y : Bytes}
    (same : utf8 text = x ++ ascii a :: y) :
    ∃ before after, text = before ++ a :: after ∧ x = utf8 before ∧ y = utf8 after := by
  induction text generalizing x with
  | nil =>
    rw [utf8_nil] at same
    exact absurd same.symm (List.append_ne_nil_of_right_ne_nil x (List.cons_ne_nil _ _))
  | cons c text ih =>
    rw [utf8_cons] at same
    by_cases first : x = []
    · subst first
      have member : ascii a ∈ utf8Char c := by
        obtain ⟨b, bytes, shape, -⟩ := utf8Char_eq_cons c
        rw [shape, List.cons_append, List.nil_append, List.cons.injEq] at same
        rw [shape, same.1]
        exact List.mem_cons_self
      cases (mem_utf8Char small).1 member
      rw [utf8Char_ascii small] at same
      exact ⟨[], text, rfl, rfl, (List.cons.inj same).2.symm⟩
    · obtain ⟨x', rfl, later⟩ := utf8Char_eq_append small first same
      obtain ⟨before, after, rfl, rfl, rfl⟩ := ih later
      exact ⟨c :: before, after, rfl, (utf8_cons c before).symm, rfl⟩

def isDigitByte (b : UInt8) : Prop := 0x30 ≤ b.toNat ∧ b.toNat ≤ 0x39

def isIdentifierByte (b : UInt8) : Prop :=
  isDigitByte b ∨ (0x41 ≤ b.toNat ∧ b.toNat ≤ 0x5A) ∨ (0x61 ≤ b.toNat ∧ b.toNat ≤ 0x7A) ∨
    b = 0x5F ∨ b = 0x24 ∨ 0x80 ≤ b.toNat

theorem isDigit_iff (c : Char) : c.isDigit = true ↔ 0x30 ≤ c.toNat ∧ c.toNat ≤ 0x39 := by
  simp [Char.isDigit, UInt32.le_iff_toNat_le]

theorem isIdentifierChar_iff (c : Char) :
    isIdentifierChar c = true ↔ c.isDigit = true ∨ (0x41 ≤ c.toNat ∧ c.toNat ≤ 0x5A) ∨
      (0x61 ≤ c.toNat ∧ c.toNat ≤ 0x7A) ∨ c = '_' ∨ c = '$' ∨ 0x80 ≤ c.toNat := by
  have letter : c.isAlpha = (c.isUpper || c.isLower) := rfl
  have upper : c.isUpper = decide (65 ≤ c.val ∧ c.val ≤ 90) := rfl
  have lower : c.isLower = (decide (97 ≤ c.val) && decide (c.val ≤ 122)) := rfl
  simp [isIdentifierChar, Char.isAlphanum, letter, upper, lower, UInt32.le_iff_toNat_le]
  tauto

theorem isDigitByte_iff {c : Char} {b : UInt8} (member : b ∈ utf8Char c) :
    isDigitByte b ↔ c.isDigit = true := by
  rw [isDigit_iff]
  rcases utf8Char_cases c with ⟨below, same⟩ | ⟨above, wide⟩
  · rw [same, List.mem_singleton] at member
    rw [member, isDigitByte, toNat_ascii below]
  · have high := UInt8.le_iff_toNat_le.1 (wide b member)
    change 128 ≤ _ at high
    constructor <;> intro ⟨_, _⟩ <;> omega

theorem isIdentifierByte_iff {c : Char} {b : UInt8} (member : b ∈ utf8Char c) :
    isIdentifierByte b ↔ isIdentifierChar c = true := by
  rw [isIdentifierChar_iff, isIdentifierByte, isDigitByte_iff member]
  rcases utf8Char_cases c with ⟨below, same⟩ | ⟨above, wide⟩
  · rw [same, List.mem_singleton] at member
    have underscore : ascii c = 0x5F ↔ c = '_' :=
      ⟨fun h => ascii_inj below (d := '_') (by decide) h, fun h => by rw [h]; rfl⟩
    have dollar : ascii c = 0x24 ↔ c = '$' :=
      ⟨fun h => ascii_inj below (d := '$') (by decide) h, fun h => by rw [h]; rfl⟩
    rw [member, toNat_ascii below, underscore, dollar]
  · have high := UInt8.le_iff_toNat_le.1 (wide b member)
    change 128 ≤ _ at high
    simp only [high, above, or_true]

end ExtendedQuery.Text
