import ExtendedQuery.Proofs.Sql.Growth
import ExtendedQuery.Sql.Length

/-!
# Lengths are exact

The numbers of one decade have the same width (`length_digits`), so the calculation by decades counts the digits
of the single numbers (`digitsUpTo?_eq`). A length is calculated from all placeholders up to the last one, and the
ones before the first are taken off again, so it is the total up to the last one that has to fit in 64 bits
(`runningLength`). For native text it always does, and for a grown text if the text is one that can be written
(`runningLength_lt`). Main statement: `lengths_exact`.
-/

namespace ExtendedQuery.Sql

open Text

def digitCount (first count : Nat) : Nat :=
  ((List.range' first count).map fun n => (Decimal.digits n).length).sum

theorem length_digits {n exponent : Nat} (low : 10 ^ exponent ≤ n) (high : n < 10 ^ (exponent + 1)) :
    (Decimal.digits n).length = exponent + 1 := by
  have most : (Decimal.digits n).length ≤ exponent + 1 :=
    (Nat.length_toDigits_le_iff (by decide) (by omega)).2 high
  cases exponent with
  | zero => exact Nat.le_antisymm most Nat.length_toDigits_pos
  | succ exponent =>
    have least : ¬ (Decimal.digits n).length ≤ exponent + 1 := fun short =>
      Nat.not_lt.2 low ((Nat.length_toDigits_le_iff (by decide) (by omega)).1 short)
    omega

theorem length_digits_mono {m n : Nat} (le : m ≤ n) : (Decimal.digits m).length ≤ (Decimal.digits n).length := by
  have inside : n < 10 ^ (Decimal.digits n).length :=
    (Nat.length_toDigits_le_iff (by decide) Nat.length_toDigits_pos).1 (Nat.le_refl _)
  exact (Nat.length_toDigits_le_iff (by decide) Nat.length_toDigits_pos).2 (Nat.lt_of_le_of_lt le inside)

@[simp] theorem digitCount_zero (first : Nat) : digitCount first 0 = 0 := rfl

theorem digitCount_succ (first count : Nat) :
    digitCount first (count + 1) = (Decimal.digits first).length + digitCount (first + 1) count := by
  simp [digitCount, List.range'_succ]

theorem digitCount_add (first a b : Nat) :
    digitCount first (a + b) = digitCount first a + digitCount (first + a) b := by
  unfold digitCount
  rw [← List.sum_append, ← List.map_append, List.range'_append_1]

theorem digitCount_split {low middle high : Nat} (first : low ≤ middle) (second : middle ≤ high) :
    digitCount low (high - low) = digitCount low (middle - low) + digitCount middle (high - middle) := by
  have whole : high - low = (middle - low) + (high - middle) := by omega
  rw [whole, digitCount_add, Nat.add_sub_cancel' first]

theorem digitCount_decade {first count exponent : Nat} (low : 10 ^ exponent ≤ first)
    (high : first + count ≤ 10 ^ (exponent + 1)) : digitCount first count = count * (exponent + 1) := by
  induction count generalizing first with
  | zero => simp
  | succ count ih =>
    rw [digitCount_succ, length_digits low (by omega), ih (by omega) (by omega), Nat.succ_mul, Nat.add_comm]

theorem le_digitCount (first count : Nat) : count ≤ digitCount first count := by
  induction count generalizing first with
  | zero => exact Nat.zero_le _
  | succ count ih =>
    have width : 0 < (Decimal.digits first).length := Nat.length_toDigits_pos
    have later := ih (first + 1)
    rw [digitCount_succ]
    omega

theorem digitCount_mono {first first' : Nat} (le : first ≤ first') (count : Nat) :
    digitCount first count ≤ digitCount first' count := by
  induction count generalizing first first' with
  | zero => exact Nat.le_refl _
  | succ count ih =>
    rw [digitCount_succ, digitCount_succ]
    exact Nat.add_le_add (length_digits_mono le) (ih (Nat.succ_le_succ le))

theorem addWidths?_eq {low high : Nat} (le : low ≤ high) (fits : high < UInt64.size) (positive : 0 < low)
    (total width : Nat) :
    addWidths? total low high (width + 1) = Count.ofNat? (total + (high + 1 - low) * (width + 1)) := by
  have numbers : high - low + 1 = high + 1 - low := by omega
  have count : Count.add? (high - low) 1 = some (high + 1 - low) := by
    rw [Count.add?, numbers, Count.ofNat?_of_lt (by omega)]
  simp only [addWidths?, Count.sub?_of_le le, count, Option.bind_eq_bind, Option.bind_some]
  by_cases small : (high + 1 - low) * (width + 1) < UInt64.size
  · rw [Count.mul?, Count.ofNat?_of_lt small, Option.bind_some, Count.add?]
  · rw [Count.mul?, Count.ofNat?_of_le (Nat.not_lt.1 small), Option.bind_none, Count.ofNat?_of_le (by omega)]

theorem digitCount_decades {n exponent : Nat} (reached : 10 ^ exponent ≤ n) :
    digitCount (10 ^ exponent) (n + 1 - 10 ^ exponent) =
      (min (10 ^ (exponent + 1) - 1) n + 1 - 10 ^ exponent) * (exponent + 1) +
        digitCount (10 ^ (exponent + 1)) (n + 1 - 10 ^ (exponent + 1)) := by
  have longer : 10 ^ exponent < 10 ^ (exponent + 1) := Nat.pow_lt_pow_succ (by decide)
  rcases Nat.le_total (10 ^ (exponent + 1)) (n + 1) with beyond | within
  · have last : min (10 ^ (exponent + 1) - 1) n + 1 = 10 ^ (exponent + 1) := by omega
    rw [last, digitCount_split (Nat.le_of_lt longer) beyond, digitCount_decade (Nat.le_refl _) (by omega)]
  · have last : min (10 ^ (exponent + 1) - 1) n = n := by omega
    have none : n + 1 - 10 ^ (exponent + 1) = 0 := by omega
    rw [last, none]
    exact digitCount_decade (Nat.le_refl _) (by omega)

theorem digitsFrom?_eq {n : Nat} (fits : n < UInt64.size) (exponent : Nat) {total : Nat}
    (small : total < UInt64.size) :
    digitsFrom? n exponent total =
      Count.ofNat? (total + digitCount (10 ^ exponent) (n + 1 - 10 ^ exponent)) := by
  have positive : 0 < 10 ^ exponent := Nat.pow_pos (by decide)
  have longer : 10 ^ exponent < 10 ^ (exponent + 1) := Nat.pow_lt_pow_succ (by decide)
  rw [digitsFrom?]
  simp only [Nat.pow_eq]
  by_cases reached : 10 ^ exponent ≤ n
  · rw [if_pos reached, Count.mul?, ← Nat.pow_succ]
    by_cases bounded : 10 ^ (exponent + 1) < UInt64.size
    · have last : Count.sub? (10 ^ (exponent + 1)) 1 = some (10 ^ (exponent + 1) - 1) := Count.sub?_of_le (by omega)
      have width := addWidths?_eq (Nat.le_min.2 ⟨Nat.le_sub_one_of_lt longer, reached⟩) (by omega) positive
      rw [Count.ofNat?_of_lt bounded, digitCount_decades reached, ← Nat.add_assoc]
      simp only [last, width, Option.bind_eq_bind, Option.bind_some]
      generalize total + (min (10 ^ (exponent + 1) - 1) n + 1 - 10 ^ exponent) * (exponent + 1) = total'
      by_cases small' : total' < UInt64.size
      · rw [Count.ofNat?_of_lt small', Option.bind_some, digitsFrom?_eq fits (exponent + 1) small']
      · rw [Count.ofNat?_of_le (Nat.not_lt.1 small'), Option.bind_none, Count.ofNat?_of_le (by omega)]
    · -- No power of ten follows in 64 bits, so all numbers that are left are in this decade.
      rw [Count.ofNat?_of_le (Nat.not_lt.1 bounded), addWidths?_eq reached fits positive,
        digitCount_decade (Nat.le_refl _) (by omega)]
  · have none : n + 1 - 10 ^ exponent = 0 := by omega
    rw [if_neg reached, none, digitCount_zero, Nat.add_zero, Count.ofNat?_of_lt small]
termination_by n + 1 - 10 ^ exponent

theorem digitsUpTo?_eq {n : Nat} (fits : n < UInt64.size) : digitsUpTo? n = Count.ofNat? (digitCount 1 n) := by
  rw [digitsUpTo?, digitsFrom?_eq fits 0 (by decide), Nat.zero_add, Nat.pow_zero, Nat.add_sub_cancel]

namespace Fragments

def placeholders (first last : Nat) : Text := (List.range' first (last + 1 - first)).flatMap placeholder

theorem byteLength_digits (n : Nat) : byteLength (Decimal.digits n) = (Decimal.digits n).length := by
  have ascii : ∀ c ∈ Decimal.digits n, c.utf8Size = 1 := by
    intro c member
    have isDigit := Decimal.isDigit_of_mem_digits member
    rw [Char.isDigit, Bool.and_eq_true, decide_eq_true_iff, decide_eq_true_iff] at isDigit
    exact Char.utf8Size_eq_one_iff.2 (UInt32.le_trans isDigit.2 (by decide))
  generalize Decimal.digits n = digits at ascii
  induction digits with
  | nil => rfl
  | cons c digits ih =>
    rw [List.forall_mem_cons] at ascii
    rw [byteLength_cons, ascii.1, ih ascii.2, List.length_cons, Nat.add_comm]

theorem byteLength_placeholder (n : Nat) : byteLength (placeholder n) = 1 + (Decimal.digits n).length := by
  rw [placeholder, byteLength_cons, byteLength_digits]
  rfl

theorem byteLength_flatMap_placeholder (first count : Nat) :
    byteLength ((List.range' first count).flatMap placeholder) = count + digitCount first count := by
  induction count generalizing first with
  | zero => rfl
  | succ count ih =>
    rw [List.range'_succ, List.flatMap_cons, byteLength_append, ih, byteLength_placeholder, digitCount_succ]
    omega

theorem byteLength_placeholders (first last : Nat) :
    byteLength (placeholders first last) = (last + 1 - first) + digitCount first (last + 1 - first) :=
  byteLength_flatMap_placeholder first (last + 1 - first)

end Fragments

/-- What is added up for the placeholders from `first` to `last` before the digits below `first` are taken off. -/
def runningLength (first last : Nat) : Nat := (last + 1 - first) + digitCount 1 last

theorem runningLength_eq {first last : Nat} (positive : 0 < first) (le : first ≤ last) :
    runningLength first last =
      byteLength (Fragments.placeholders first last) + digitCount 1 (first - 1) := by
  have split : digitCount 1 last = digitCount 1 (first - 1) + digitCount first (last + 1 - first) :=
    digitCount_split positive (Nat.le_succ_of_le le)
  rw [Fragments.byteLength_placeholders, runningLength, split]
  omega

theorem placeholdersLength?_of_lt {first last : Nat} (lt : last < first) : placeholdersLength? first last = some 0 :=
  if_pos lt

theorem placeholdersLength?_eq_some_iff {first last n : Nat} (positive : 0 < first) (le : first ≤ last)
    (fits : last < UInt64.size) : placeholdersLength? first last = some n ↔
      runningLength first last < UInt64.size ∧ n = byteLength (Fragments.placeholders first last) := by
  have signs : Count.add? (last - first) 1 = some (last + 1 - first) := by
    have numbers : last - first + 1 = last + 1 - first := by omega
    rw [Count.add?, numbers, Count.ofNat?_of_lt (by omega)]
  have before : Count.sub? first 1 = some (first - 1) := Count.sub?_of_le positive
  have running := runningLength_eq positive le
  rw [placeholdersLength?, if_neg (Nat.not_lt.2 le)]
  simp only [Count.sub?_of_le le, signs, before, digitsUpTo?_eq fits, Option.bind_eq_bind, Option.bind_some]
  by_cases small : runningLength first last < UInt64.size
  · have upTo : digitCount 1 last < UInt64.size := Nat.lt_of_le_of_lt (Nat.le_add_left _ _) small
    rw [Count.ofNat?_of_lt upTo, Option.bind_some, Count.add?, ← runningLength, Count.ofNat?_of_lt small,
      Option.bind_some, digitsUpTo?_eq (by omega), Count.ofNat?_of_lt (by omega), Option.bind_some,
      Count.sub?_of_le (by omega), running, Nat.add_sub_cancel, Option.some.injEq]
    exact ⟨fun same => ⟨running ▸ small, same.symm⟩, fun exact => exact.2.symm⟩
  · refine iff_of_false ?_ fun exact => small exact.1
    cases upTo : Count.ofNat? (digitCount 1 last) with
    | none => exact nofun
    | some digits =>
      obtain ⟨-, rfl⟩ := Count.ofNat?_eq_some_iff.1 upTo
      rw [Option.bind_some, Count.add?, ← runningLength, Count.ofNat?_of_le (Nat.not_lt.1 small), Option.bind_none]
      exact nofun

theorem byteLength_numbered (n : Nat) (later : List Text) : byteLength (Fragments.numbered n later) =
    (later.map byteLength).sum + later.length + digitCount n later.length := by
  induction later generalizing n with
  | nil => rfl
  | cons part later ih =>
    rw [Fragments.numbered_cons, byteLength_append, byteLength_append, Fragments.byteLength_placeholder, ih,
      List.map_cons, List.sum_cons, List.length_cons, digitCount_succ]
    omega

theorem byteLength_native (fragments : Fragments) : byteLength fragments.native =
    (fragments.parts.map byteLength).sum + byteLength (Fragments.placeholders 1 fragments.placeholderCount) := by
  rw [Fragments.native, byteLength_append, byteLength_numbered, Fragments.byteLength_placeholders, Nat.add_sub_cancel,
    Fragments.parts, List.map_cons, List.sum_cons, Fragments.placeholderCount]
  omega

theorem foldlM_add? {total : Nat} {lengths : List Nat} (fits : total + lengths.sum < UInt64.size) :
    lengths.foldlM Count.add? total = some (total + lengths.sum) := by
  induction lengths generalizing total with
  | nil => rfl
  | cons length lengths ih =>
    rw [List.sum_cons, ← Nat.add_assoc] at fits
    rw [List.foldlM_cons, Count.add?, Count.ofNat?_of_lt (by omega), Option.bind_eq_bind, Option.bind_some, ih fits,
      List.sum_cons, Nat.add_assoc]

theorem placeholdersLength?_one {last : Nat} (fits : byteLength (Fragments.placeholders 1 last) < UInt64.size) :
    placeholdersLength? 1 last = some (byteLength (Fragments.placeholders 1 last)) := by
  rcases Nat.eq_zero_or_pos last with rfl | positive
  · rfl
  · have running := runningLength_eq Nat.one_pos positive
    have few : last < UInt64.size := by
      rw [Fragments.byteLength_placeholders] at fits
      omega
    rw [Nat.sub_self, digitCount_zero, Nat.add_zero] at running
    exact (placeholdersLength?_eq_some_iff Nat.one_pos positive few).2 ⟨running ▸ fits, rfl⟩

theorem nativeLength?_eq {fragments : Fragments} (fits : byteLength fragments.native < UInt64.size) :
    fragments.nativeLength? = some (byteLength fragments.native) := by
  have whole := byteLength_native fragments
  rw [Fragments.nativeLength?, foldlM_add? (by omega), placeholdersLength?_one (by omega)]
  simp only [Option.bind_eq_bind, Option.bind_some, Nat.zero_add]
  rw [Count.add?, ← whole, Count.ofNat?_of_lt fits]

theorem byteLength_columns (first arity : Nat) :
    byteLength ([','].intercalate ((List.range' first arity).map Fragments.placeholder)) =
      (arity - 1) + arity + digitCount first arity := by
  induction arity generalizing first with
  | zero => rfl
  | succ arity ih =>
    cases arity with
    | zero =>
      rw [List.range'_one, List.map_singleton, List.intercalate_singleton, Fragments.byteLength_placeholder,
        digitCount_succ]
      rfl
    | succ arity =>
      have later := ih (first + 1)
      rw [List.range'_succ, List.map_cons] at later
      rw [List.range'_succ, List.range'_succ, List.map_cons, List.map_cons, List.intercalate_cons_cons,
        byteLength_append, byteLength_append, later, Fragments.byteLength_placeholder, digitCount_succ first]
      have comma : byteLength [','] = 1 := rfl
      omega

theorem byteLength_rowGroup (arity first : Nat) :
    byteLength (rowGroup arity first) = 3 + (arity - 1) + arity + digitCount first arity := by
  have opened : byteLength ",(".toList = 2 := rfl
  have closed : byteLength [')'] = 1 := rfl
  rw [rowGroup, byteLength_append, byteLength_append, byteLength_columns, opened, closed]
  omega

theorem byteLength_growText (native : Text) (arity further : Nat) :
    byteLength (growText native arity (further + 1)) = byteLength native + further * 3 + further * (arity - 1) +
      (arity * further + digitCount (arity + 1) (arity * further)) := by
  induction further with
  | zero => simp [growText]
  | succ further ih =>
    have next : arity + 1 + arity * further = (further + 1) * arity + 1 := by
      rw [Nat.add_one_mul, Nat.mul_comm]
      omega
    have positive : 0 < further + 1 := Nat.succ_pos further
    rw [growText_succ native arity positive, byteLength_append, ih, byteLength_rowGroup,
      Nat.mul_add_one arity, digitCount_add, next, Nat.add_one_mul further 3, Nat.add_one_mul further (arity - 1)]
    omega

theorem byteLength_placeholders_grown (arity further : Nat) :
    byteLength (Fragments.placeholders (arity + 1) (arity * (further + 1))) =
      arity * further + digitCount (arity + 1) (arity * further) := by
  have count : arity * (further + 1) + 1 - (arity + 1) = arity * further := by
    rw [Nat.mul_succ]
    omega
  rw [Fragments.byteLength_placeholders, count]

theorem grownLength?_of_single (length arity : Nat) {rows : Nat} (single : rows ≤ 1) :
    grownLength? length arity rows = some length := if_pos single

theorem growText_of_single (native : Text) (arity : Nat) {rows : Nat} (single : rows ≤ 1) :
    growText native arity rows = native := by
  simp [growText, Nat.sub_eq_zero_of_le single]

theorem placeholdersLength?_grown {arity further n : Nat} (positive : 0 < further)
    (fits : arity * (further + 1) < UInt64.size) :
    placeholdersLength? (arity + 1) (arity * (further + 1)) = some n ↔
      runningLength (arity + 1) (arity * (further + 1)) < UInt64.size ∧
        n = byteLength (Fragments.placeholders (arity + 1) (arity * (further + 1))) := by
  rcases Nat.eq_zero_or_pos arity with rfl | columns
  · have none : placeholdersLength? (0 + 1) (0 * (further + 1)) = some 0 :=
      placeholdersLength?_of_lt (by rw [Nat.zero_mul]; decide)
    rw [none, byteLength_placeholders_grown, Nat.zero_mul, Nat.zero_mul, digitCount_zero, Option.some.injEq]
    exact ⟨fun same => ⟨by decide, same.symm⟩, fun exact => exact.2.symm⟩
  · have several : arity + 1 ≤ arity * (further + 1) := by
      have further := Nat.le_mul_of_pos_right arity positive
      rw [Nat.mul_add_one]
      omega
    exact placeholdersLength?_eq_some_iff (Nat.succ_pos arity) several fits

theorem grownLength?_eq_some_iff {native : Text} {arity rows n : Nat} (several : 1 < rows) :
    grownLength? (byteLength native) arity rows = some n ↔
      runningLength (arity + 1) (arity * rows) < UInt64.size ∧
        byteLength (growText native arity rows) < UInt64.size ∧ n = byteLength (growText native arity rows) := by
  obtain ⟨further, rfl⟩ := Nat.exists_eq_add_of_le' (Nat.le_of_lt several)
  have positive : 0 < further := Nat.lt_of_succ_lt_succ several
  have whole := byteLength_growText native arity further
  rw [← byteLength_placeholders_grown] at whole
  rw [grownLength?, if_neg (Nat.not_le.2 several), Count.sub?_of_le (Nat.le_of_lt several), Nat.add_sub_cancel]
  simp only [Count.add?, Count.mul?, Option.bind_eq_bind, Option.bind_some, Option.bind_eq_some_iff,
    Count.ofNat?_eq_some_iff]
  constructor
  · rintro ⟨_, ⟨-, rfl⟩, _, ⟨-, rfl⟩, _, ⟨-, rfl⟩, _, ⟨-, rfl⟩, _, ⟨-, rfl⟩, _, ⟨few, rfl⟩, l, placed, fits, rfl⟩
    obtain ⟨running, rfl⟩ := (placeholdersLength?_grown positive few).1 placed
    rw [← whole] at fits ⊢
    exact ⟨running, fits, rfl⟩
  · rintro ⟨running, fits, rfl⟩
    have few : arity * (further + 1) < UInt64.size := by
      have digits := le_digitCount 1 (arity * (further + 1))
      unfold runningLength at running
      omega
    have next : arity + 1 < UInt64.size := by
      have more := Nat.le_mul_of_pos_right arity positive
      rw [Nat.mul_add_one] at few
      rcases Nat.eq_zero_or_pos arity with rfl | columns
      · decide
      · omega
    refine ⟨_, ⟨by omega, rfl⟩, _, ⟨by omega, rfl⟩, _, ⟨by omega, rfl⟩, _, ⟨by omega, rfl⟩, _, ⟨next, rfl⟩,
      _, ⟨few, rfl⟩, _, (placeholdersLength?_grown positive few).2 ⟨running, rfl⟩, ?_, ?_⟩
    · rwa [← whole]
    · rw [whole]

theorem runningLength_lt {native : Text} {arity rows : Nat} (several : 1 < rows)
    (writable : byteLength (growText native arity rows) < 2 ^ 63) :
    runningLength (arity + 1) (arity * rows) < UInt64.size := by
  obtain ⟨further, rfl⟩ := Nat.exists_eq_add_of_le' (Nat.le_of_lt several)
  have positive : 0 < further := Nat.lt_of_succ_lt_succ several
  have rows : arity ≤ arity * further := Nat.le_mul_of_pos_right arity positive
  have commas : arity * further ≤ further * 3 + further * (arity - 1) := by
    rw [← Nat.mul_add, Nat.mul_comm]
    exact Nat.mul_le_mul_left further (by omega)
  have below : digitCount 1 arity ≤ digitCount (arity + 1) (arity * further) := by
    have more := digitCount_add (arity + 1) arity (arity * further - arity)
    rw [Nat.add_sub_cancel' rows] at more
    have wider := digitCount_mono (Nat.le_add_left 1 arity) arity
    omega
  have all : digitCount 1 (arity * (further + 1)) = digitCount 1 arity + digitCount (arity + 1) (arity * further) := by
    rw [Nat.mul_add_one, Nat.add_comm, digitCount_add, Nat.add_comm 1]
  have size : UInt64.size = 2 ^ 64 := rfl
  rw [byteLength_growText] at writable
  rw [runningLength, all, Nat.mul_add_one]
  omega

/-- Whatever length is calculated is the length of the text, and it is calculated unless the total up to the last
placeholder is too large for 64 bits. -/
theorem lengths_exact (first last : Nat) (fragments : Fragments) (native : Text) (arity rows n : Nat) :
    (last < first → placeholdersLength? first last = some 0) ∧
      (0 < first → first ≤ last → last < UInt64.size → (placeholdersLength? first last = some n ↔
        runningLength first last < UInt64.size ∧ n = byteLength (Fragments.placeholders first last))) ∧
      (byteLength fragments.native < UInt64.size →
        fragments.nativeLength? = some (byteLength fragments.native) ∧
          (placeholdersLength? 1 fragments.placeholderCount).map ((fragments.parts.map byteLength).sum + ·) =
            some (byteLength fragments.native)) ∧
      (1 < rows → (grownLength? (byteLength native) arity rows = some n ↔
        runningLength (arity + 1) (arity * rows) < UInt64.size ∧
          byteLength (growText native arity rows) < UInt64.size ∧ n = byteLength (growText native arity rows))) ∧
      (rows ≤ 1 ∨ byteLength (growText native arity rows) < 2 ^ 63 →
        grownLength? (byteLength native) arity rows = some (byteLength (growText native arity rows))) := by
  refine ⟨placeholdersLength?_of_lt, placeholdersLength?_eq_some_iff, ?_, grownLength?_eq_some_iff, ?_⟩
  · intro fits
    have whole := byteLength_native fragments
    refine ⟨nativeLength?_eq fits, ?_⟩
    rw [placeholdersLength?_one (by omega), Option.map_some, ← whole]
  · intro writable
    rcases Nat.lt_or_ge 1 rows with several | single
    · have short := writable.resolve_left (Nat.not_le.2 several)
      have fits : byteLength (growText native arity rows) < UInt64.size := Nat.lt_trans short (by decide)
      exact (grownLength?_eq_some_iff several).2 ⟨runningLength_lt several short, fits, rfl⟩
    · rw [grownLength?_of_single _ _ single, growText_of_single _ _ single]

theorem lengths_exact_ten :
    (4 < 5 ∧ placeholdersLength? 5 4 = some 0) ∧
      (0 < 9 ∧ 9 ≤ 10 ∧ 10 < UInt64.size ∧ placeholdersLength? 9 10 = some 5) ∧
      (byteLength (Fragments.native ⟨"V (".toList, [")".toList]⟩) < UInt64.size ∧
        Fragments.nativeLength? ⟨"V (".toList, [")".toList]⟩ = some 6) ∧
      (1 < 10 ∧ grownLength? 6 1 10 = some 52) ∧
      (byteLength (growText "V ($1)".toList 1 10) < 2 ^ 63 ∧ grownLength? 6 1 10 = some 52) := by
  have backwards := (lengths_exact 5 4 ⟨[], []⟩ [] 0 0 0).1
  obtain ⟨-, several, -⟩ := lengths_exact 9 10 ⟨[], []⟩ [] 0 0 5
  obtain ⟨-, -, native, grown, writable⟩ :=
    lengths_exact 1 1 ⟨"V (".toList, [")".toList]⟩ "V ($1)".toList 1 10 52
  refine ⟨⟨by decide, backwards (by decide)⟩, ⟨by decide, by decide, by decide, ?_⟩, ⟨by decide, ?_⟩,
    ⟨by decide, ?_⟩, ⟨by decide, ?_⟩⟩
  · exact (several (by decide) (by decide) (by decide)).2 ⟨by decide, by decide⟩
  · exact (native (by decide)).1
  · exact (grown (by decide)).2 ⟨by decide, by decide, by decide⟩
  · exact writable (.inr (by decide))

/-- A length that fits in 64 bits, and is not calculated: the digits of all placeholders up to the last one are
too many. -/
theorem lengths_exact_overflow :
    byteLength (growText [] (6 * 10 ^ 17) 2) = 12200000000000000003 ∧ grownLength? 0 (6 * 10 ^ 17) 2 = none := by
  -- The numbers are named, as nothing may be evaluated at them.
  generalize columns : 6 * 10 ^ 17 = arity
  obtain ⟨short, tenth⟩ : ∃ n, n = 10 ^ 17 := ⟨_, rfl⟩
  obtain ⟨long, whole⟩ : ∃ n, n = 10 ^ 18 := ⟨_, rfl⟩
  have upper : digitCount long (arity * 2 + 1 - long) = (arity * 2 + 1 - long) * 19 :=
    digitCount_decade (by omega) (by omega)
  constructor
  · have lower : digitCount (arity + 1) (long - (arity + 1)) = (long - (arity + 1)) * 18 :=
      digitCount_decade (by omega) (by omega)
    have digits := digitCount_split (by omega : arity + 1 ≤ long) (by omega : long ≤ arity * 2 + 1)
    have count : arity * 2 + 1 - (arity + 1) = arity := by omega
    rw [count, lower, upper] at digits
    rw [byteLength_growText [] arity 1, Nat.mul_one, digits, byteLength_nil]
    omega
  · have lower : digitCount short (long - short) = (long - short) * 18 := digitCount_decade (by omega) (by omega)
    have below := digitCount_split (by omega : 1 ≤ short) (by omega : short ≤ arity * 2 + 1)
    have digits := digitCount_split (by omega : short ≤ long) (by omega : long ≤ arity * 2 + 1)
    rw [digits, lower, upper, Nat.add_sub_cancel] at below
    cases calculated : grownLength? 0 arity 2 with
    | none => rfl
    | some n =>
      obtain ⟨running, -⟩ := (@grownLength?_eq_some_iff [] arity 2 n (by decide)).1 calculated
      have size : UInt64.size = 2 ^ 64 := rfl
      rw [runningLength, below, size] at running
      omega

end ExtendedQuery.Sql
