import ExtendedQuery.Statement.Name

/-!
# Names are different

A kept statement is told from all others by its name: different numbers give different names
(`StatementName.numbered_inj`), and so do different numbers of rows (`StatementName.ofRows_inj`). A grown
statement can also be told from the statements with another number, however many rows they have
(`StatementName.ofRows_numbered_inj`). Main statement: `StatementName.generated_separate`.
-/

namespace ExtendedQuery

theorem Decimal.digits_inj {a b : Nat} (same : digits a = digits b) : a = b := by
  have values := congrArg (fun ds => Nat.ofDigitChars 10 ds 0) same
  simpa [digits] using values

theorem Decimal.padded_inj {width a b : Nat} (same : padded width a = padded width b) : a = b := by
  have values := congrArg (fun ds => Nat.ofDigitChars 10 ds 0) same
  simpa [padded, digits, Nat.ofDigitChars_append] using values

theorem Decimal.underscore_not_mem_padded (width n : Nat) : '_' ∉ padded width n := by
  simp [padded, digits, Nat.underscore_not_in_toDigits]

theorem Decimal.zero_not_mem_digits (n : Nat) : '\x00' ∉ digits n := by
  intro member
  have isDigit := isDigit_of_mem_digits member
  cases isDigit

namespace StatementName

theorem eq_of_text {a b : StatementName} (same : a.text = b.text) : a = b := by
  cases a
  cases b
  cases same
  rfl

@[simp] theorem isUnnamed_unnamed : unnamed.isUnnamed = true := rfl

theorem isUnnamed_iff (name : StatementName) : name.isUnnamed = true ↔ name.text = "" := by
  simp [isUnnamed]

theorem text_numbered (n : Nat) : (numbered n).text.toList = 'q' :: Decimal.padded 5 n := by
  simp [numbered]

@[simp] theorem isUnnamed_numbered (n : Nat) : (numbered n).isUnnamed = false := by
  rw [← Bool.not_eq_true, isUnnamed_iff]
  intro empty
  have letters := congrArg String.toList empty
  rw [text_numbered] at letters
  simp at letters

theorem numbered_inj {a b : Nat} (same : numbered a = numbered b) : a = b := by
  have letters := congrArg (fun name => name.text.toList) same
  simp only [text_numbered, List.cons.injEq, true_and] at letters
  exact Decimal.padded_inj letters

theorem ofRows_one (name : StatementName) : name.ofRows 1 = name := by simp [ofRows]

theorem text_ofRows {name : StatementName} {rows : Nat} (named : name.isUnnamed = false)
    (several : 1 < rows) :
    (name.ofRows rows).text.toList = name.text.toList ++ '_' :: Decimal.digits rows := by
  simp [ofRows, named, Nat.not_le.2 several]

@[simp] theorem isUnnamed_ofRows (name : StatementName) (rows : Nat) :
    (name.ofRows rows).isUnnamed = name.isUnnamed := by
  unfold ofRows
  split
  · rfl
  · rename_i grown
    rw [not_or, Bool.not_eq_true] at grown
    rw [grown.1, ← Bool.not_eq_true, isUnnamed_iff]
    intro empty
    have letters := congrArg String.toList empty
    simp at letters

theorem text_ofRows_numbered_ne (n rows : Nat) : ((numbered n).ofRows rows).text ≠ "" := by
  rw [ne_eq, ← isUnnamed_iff, isUnnamed_ofRows, isUnnamed_numbered]
  simp

theorem ofRows_inj {name : StatementName} (named : name.isUnnamed = false) {a b : Nat} (ha : 0 < a)
    (hb : 0 < b) (same : name.ofRows a = name.ofRows b) : a = b := by
  have letters := congrArg (fun name => name.text.toList) same
  rcases Nat.eq_or_lt_of_le ha with rfl | several <;> rcases Nat.eq_or_lt_of_le hb with rfl | several'
  · rfl
  · simp [ofRows_one, text_ofRows named several'] at letters
  · simp [ofRows_one, text_ofRows named several] at letters
  · simp only [text_ofRows named several, text_ofRows named several', List.append_cancel_left_eq,
      List.cons.injEq, true_and] at letters
    exact Decimal.digits_inj letters

theorem takeWhile_ofRows_numbered (n rows : Nat) :
    ((numbered n).ofRows rows).text.toList.takeWhile (· != '_') = 'q' :: Decimal.padded 5 n := by
  have inner : ∀ c ∈ 'q' :: Decimal.padded 5 n, (c != '_') = true := by
    intro c member
    rw [bne_iff_ne]
    rintro rfl
    simp [Decimal.underscore_not_mem_padded] at member
  by_cases several : 1 < rows
  · rw [text_ofRows (isUnnamed_numbered n) several, text_numbered,
      List.takeWhile_append_of_pos inner]
    simp
  · have single : (numbered n).ofRows rows = numbered n := by
      simp [ofRows, Nat.not_lt.1 several]
    rw [single, text_numbered, ← List.append_nil ('q' :: _), List.takeWhile_append_of_pos inner]
    simp

theorem ofRows_numbered_inj {a b r s : Nat} (same : (numbered a).ofRows r = (numbered b).ofRows s) :
    a = b := by
  have letters := congrArg (fun name => name.text.toList.takeWhile (· != '_')) same
  simp only [takeWhile_ofRows_numbered, List.cons.injEq, true_and] at letters
  exact Decimal.padded_inj letters

theorem zero_not_mem_numbered (n : Nat) : '\x00' ∉ (numbered n).text.toList := by
  rw [text_numbered, Decimal.padded, List.mem_cons, List.mem_append, List.mem_replicate]
  simp [Decimal.zero_not_mem_digits]

theorem zero_not_mem_ofRows {name : StatementName} (free : '\x00' ∉ name.text.toList) (rows : Nat) :
    '\x00' ∉ (name.ofRows rows).text.toList := by
  unfold ofRows
  split
  · exact free
  · simp [free, Decimal.zero_not_mem_digits]

/-- The name of the shape of so many rows, for the kept statement that takes the number. -/
def generated (n rows : Nat) : StatementName := ((NameSupply.mk n).take true).1.ofRows rows

/-- A name stands for one shape of one statement, and the server can read it; a statement without a name has none
for any shape. -/
theorem generated_separate :
    (∀ a b r s, 1 ≤ r → 1 ≤ s → (generated a r = generated b s ↔ a = b ∧ r = s)) ∧
      (∀ n rows, (generated n rows).text ≠ "" ∧ '\x00' ∉ (generated n rows).text.toList) ∧
      ∀ rows, unnamed.ofRows rows = unnamed := by
  refine ⟨?_, ?_, ?_⟩
  · intro a b r s hr hs
    constructor
    · intro same
      obtain rfl : a = b := ofRows_numbered_inj same
      exact ⟨rfl, ofRows_inj (isUnnamed_numbered a) hr hs same⟩
    · rintro ⟨rfl, rfl⟩
      rfl
  · exact fun n rows => ⟨text_ofRows_numbered_ne n rows, zero_not_mem_ofRows (zero_not_mem_numbered n) rows⟩
  · exact fun rows => if_pos (.inl isUnnamed_unnamed)

theorem generated_separate_digits :
    1 ≤ 1 ∧ 1 ≤ 6 ∧ (generated 123456 1 = generated 12345 6 ↔ 123456 = 12345 ∧ 1 = 6) :=
  ⟨by decide, by decide, generated_separate.1 123456 12345 1 6 (by decide) (by decide)⟩

end StatementName

end ExtendedQuery
