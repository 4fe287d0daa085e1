import ExtendedQuery.Proofs.Sql.SingleRow
import ExtendedQuery.Proofs.Sql.Statements

/-!
# The native text read again

The native text of a statement is the text with a number for each mark (`numberMarks`). A placeholder `$n` is
plain text wherever it stands, and what is read around it does not change either, as long as no identifier byte is
next to the mark: such a byte could belong to a tag or to the mark `E` of a literal. Main statement:
`native_segmentation`, the native text is a single fragment with the constructs of the text.
-/

namespace ExtendedQuery.Sql

open Text

namespace Grammar

/-- Behind `before`, no identifier byte stands next to a mark. -/
def MarksApart (before : Bytes) (segments : List Segment) : Prop :=
  ∀ front back, segments = front ++ .mark :: back →
    ¬ EndsIdentifier (before ++ bytesOf front) ∧ ¬ StartsIdentifier (bytesOf back)

/-- The segments with numbers for the marks, from `n` on. -/
def numberMarks : (n : Nat) → List Segment → List Segment
  | _, [] => []
  | n, .mark :: later => plain (Fragments.placeholder n) ++ numberMarks (n + 1) later
  | n, segment :: later => segment :: numberMarks n later

def Segment.isConstruct : Segment → Bool
  | .enclosed _ _ | .lineComment _ => true
  | _ => false

theorem prefix_cases {p front y : Bytes} {b : UInt8} (starts : p <+: front ++ b :: y) :
    p <+: front ∨ front ++ [b] <+: p := by
  rcases Nat.lt_or_ge front.length p.length with longer | shorter
  · right
    have shown : front ++ [b] <+: front ++ b :: y := ⟨y, by simp⟩
    exact List.prefix_of_prefix_length_le shown starts (by simpa using longer)
  · left
    exact List.prefix_of_prefix_length_le starts (List.prefix_append _ _) shorter

section

variable {standard : Bool} {before before' common later later' x y : Bytes}

theorem head?_append_ne {b c d : UInt8} (next : (common ++ b :: x).head? ≠ some d) (other : c ≠ d) :
    (common ++ c :: y).head? ≠ some d := by
  cases common with
  | nil => simpa using other
  | cons e common => exact next

theorem Closes.of_head {construct : Construct} {tail : Bytes}
    (closes : Closes standard before later construct tail)
    (next : later.head? ≠ some quote → later'.head? ≠ some quote) :
    Closes standard before later' construct tail := by
  cases closes with
  | literal escapes tail single => exact .literal escapes tail (next single)
  | identifier absent => exact .identifier absent
  | comment tail => exact .comment tail
  | @dollarQuote tag content first =>
    apply Closes.dollarQuote
    intro x y same
    by_contra earlier
    -- an earlier tag ends before the closing one does, so it was there before as well
    have inside : x ++ utf8 tag <+: content ++ utf8 tag ++ later' := ⟨y, same.symm⟩
    have shorter : (x ++ utf8 tag).length ≤ (content ++ utf8 tag).length := by
      rw [List.length_append, List.length_append]
      omega
    obtain ⟨z, found⟩ := List.prefix_of_prefix_length_le inside (List.prefix_append _ _) shorter
    have bound := first x (z ++ later) (by rw [← found, List.append_assoc])
    exact earlier bound

theorem endsIdentifier_of_tag {b : UInt8} {name : Bytes} (isName : IsTagName name)
    (starts : (b :: common) ++ [dollar] <+: dollar :: name ++ [dollar]) : EndsIdentifier (b :: common) := by
  rw [List.cons_append, List.cons_append, List.cons_prefix_cons] at starts
  obtain ⟨rfl, starts⟩ := starts
  have shorter : common.length ≤ name.length := by simpa using starts.length_le
  have inside : common <+: name :=
    List.prefix_of_prefix_length_le ((List.prefix_append _ _).trans starts) (List.prefix_append _ _) shorter
  rcases List.eq_nil_or_concat common with rfl | ⟨front, c, rfl⟩
  · exact ⟨dollar, rfl, by simp [isIdentifierByte]⟩
  · rw [List.concat_eq_append] at inside ⊢
    exact ⟨c, List.getLast?_concat (l := dollar :: front), (isName.1 c (inside.subset (by simp))).1⟩

theorem Reads.of_mark {segment : Segment} (reads : Reads standard before (common ++ questionMark :: x) segment)
    (free : ¬ EndsIdentifier (segment.bytes ++ common)) : Reads standard before (common ++ dollar :: y) segment := by
  cases reads with
  | enclosed opens closes =>
    refine .enclosed opens (closes.of_head fun next => head?_append_ne next ?_)
    decide
  | lineComment inner ends =>
    refine .lineComment inner (.inr (ends.resolve_left ?_))
    simp
  | escapedMark => exact .escapedMark
  | mark single => exact .mark (head?_append_ne single (by decide))
  | @other b notMark notLine open' =>
    have inside {p : Bytes} (starts : p <+: b :: common) : p <+: b :: (common ++ questionMark :: x) :=
      starts.trans (List.prefix_append (b :: common) _)
    have absent {p : Bytes} (starts : (b :: common) ++ [dollar] <+: p) (noDollar : dollar ∉ p) : False :=
      noDollar (starts.subset (by simp))
    apply Reads.other notMark
    · intro starts
      rw [← List.cons_append] at starts
      rcases prefix_cases starts with within | beyond
      · exact notLine (inside within)
      · exact absent beyond (by decide)
    · intro construct opening opens starts
      rw [← List.cons_append] at starts
      rcases prefix_cases starts with within | beyond
      · exact open' construct opening opens (inside within)
      · cases opens with
        | literal => exact absent beyond (by decide)
        | identifier => exact absent beyond (by decide)
        | comment => exact absent beyond (by decide)
        | dollarQuote _ isName => exact free (endsIdentifier_of_tag isName beyond)

theorem endsIdentifier_of_ne_nil {bytes : Bytes} (nonempty : bytes ≠ []) (before : Bytes) :
    EndsIdentifier (before ++ bytes) ↔ EndsIdentifier bytes := by
  rw [EndsIdentifier, EndsIdentifier, List.getLast?_append_of_ne_nil _ nonempty]

theorem endsEscapeMark_concat (front : Bytes) (e : UInt8) :
    EndsEscapeMark (front ++ [e]) ↔ (e = 0x65 ∨ e = 0x45) ∧ ¬ EndsIdentifier front := by
  constructor
  · rintro ⟨front', e', same, isMark, free⟩
    obtain ⟨rfl, last⟩ := List.append_inj' same rfl
    cases last
    exact ⟨isMark, free⟩
  · intro ⟨isMark, free⟩
    exact ⟨front, e, rfl, isMark, free⟩

/-- What follows is read alike behind both texts. An identifier at their end matters only if it could go on. -/
structure Alike (before before' rest : Bytes) : Prop where
  escape : EndsEscapeMark before ↔ EndsEscapeMark before'
  identifier : StartsIdentifier rest → (EndsIdentifier before ↔ EndsIdentifier before')

theorem Alike.symm {rest : Bytes} (alike : Alike before before' rest) : Alike before' before rest :=
  ⟨alike.escape.symm, fun starts => (alike.identifier starts).symm⟩

theorem Alike.append {bytes rest : Bytes} (alike : Alike before before' (bytes ++ rest)) (nonempty : bytes ≠ []) :
    Alike (before ++ bytes) (before' ++ bytes) rest := by
  constructor
  · obtain ⟨front, e, rfl⟩ := (List.eq_nil_or_concat bytes).resolve_left nonempty
    rw [List.concat_eq_append] at alike ⊢
    rw [← List.append_assoc, ← List.append_assoc, endsEscapeMark_concat, endsEscapeMark_concat]
    apply and_congr_right
    intro isMark
    -- the letter alone is an identifier, so it was known whether it could go on one
    cases front with
    | nil =>
      have letter : StartsIdentifier ([] ++ [e] ++ rest) := by
        refine ⟨e, rfl, ?_⟩
        rcases isMark with rfl | rfl <;> simp [isIdentifierByte, isDigitByte]
      rw [List.append_nil, List.append_nil, alike.identifier letter]
    | cons b front =>
      rw [endsIdentifier_of_ne_nil (List.cons_ne_nil b front), endsIdentifier_of_ne_nil (List.cons_ne_nil b front)]
  · intro _
    rw [endsIdentifier_of_ne_nil nonempty, endsIdentifier_of_ne_nil nonempty]

theorem Opens.alike {construct : Construct} {opening rest : Bytes} (opens : Opens before construct opening)
    (starts : opening <+: rest) (alike : Alike before before' rest) : Opens before' construct opening := by
  cases opens with
  | literal => exact .literal
  | identifier => exact .identifier
  | comment => exact .comment
  | @dollarQuote name free isName =>
    obtain ⟨later, rfl⟩ := starts
    have dollarFirst : StartsIdentifier (dollar :: utf8 name ++ [dollar] ++ later) :=
      ⟨dollar, rfl, by simp [isIdentifierByte]⟩
    exact .dollarQuote (mt (alike.identifier dollarFirst).2 free) isName

theorem Reads.alike {segment : Segment} (reads : Reads standard before later segment)
    (alike : Alike before before' (segment.bytes ++ later)) : Reads standard before' later segment := by
  cases reads with
  | @enclosed construct opening tail opens closes =>
    apply Reads.enclosed (opens.alike ⟨tail ++ later, (List.append_assoc _ _ _).symm⟩ alike)
    cases closes with
    | literal escapes tail next => exact .literal (escapes.trans (or_congr_right alike.escape)) tail next
    | identifier absent => exact .identifier absent
    | comment tail => exact .comment tail
    | dollarQuote first => exact .dollarQuote first
  | lineComment inner ends => exact .lineComment inner ends
  | escapedMark => exact .escapedMark
  | mark single => exact .mark single
  | other notMark notLine free =>
    apply Reads.other notMark notLine
    intro construct opening opens starts
    exact free construct opening (opens.alike starts alike.symm) starts

theorem digits_ne_nil (n : Nat) : utf8 (Decimal.digits n) ≠ [] := by
  intro none
  have empty : Decimal.digits n = [] := utf8_injective (none.trans utf8_nil.symm)
  exact Nat.toDigits_ne_nil empty

theorem isDigitByte_digits (n : Nat) : ∀ b ∈ utf8 (Decimal.digits n), isDigitByte b := by
  intro b member
  rw [utf8_eq_flatMap, List.mem_flatMap] at member
  obtain ⟨c, digit, inside⟩ := member
  exact (isDigitByte_iff inside).2 (Decimal.isDigit_of_mem_digits digit)

theorem not_isSpecial_of_digit {b : UInt8} (digit : isDigitByte b) : ¬ IsSpecial b := by
  rintro (rfl | rfl | rfl | rfl | rfl | rfl) <;> exact absurd digit (by simp [isDigitByte])

theorem plain_placeholder (n : Nat) :
    plain (Fragments.placeholder n) = .other dollar :: (utf8 (Decimal.digits n)).map .other := by
  rw [plain, Fragments.placeholder, utf8_dollar, List.map_cons]

theorem segmentation_placeholder (n : Nat) (before rest : Bytes) :
    Segmentation standard before (plain (Fragments.placeholder n)) rest := by
  have digits := isDigitByte_digits n
  obtain ⟨d, ds, shape⟩ := List.exists_cons_of_ne_nil (digits_ne_nil n)
  have first : isDigitByte d := digits d (by simp [shape])
  rw [plain_placeholder]
  refine .cons (.other (by decide) ?_ ?_) (segmentation_other fun b member => not_isSpecial_of_digit (digits b member))
  · rw [List.cons_prefix_cons]
    exact fun starts => absurd starts.1 (by decide)
  · rw [bytesOf_map_other, shape]
    intro construct opening opens starts
    cases opens with
    | literal => simp [List.cons_prefix_cons] at starts
    | identifier => simp [List.cons_prefix_cons] at starts
    | comment => simp [List.cons_prefix_cons] at starts
    | @dollarQuote name _ isName =>
      rw [List.cons_append, List.cons_append, List.cons_prefix_cons] at starts
      cases named : utf8 name with
      | nil =>
        rw [named, List.nil_append, List.cons_prefix_cons] at starts
        rw [← starts.2.1] at first
        simp [isDigitByte] at first
      | cons c bytes =>
        rw [named, List.cons_append, List.cons_prefix_cons] at starts
        rw [named] at isName
        rw [← starts.2.1] at first
        exact isName.2 c rfl first

theorem not_endsEscapeMark {b : UInt8} (front : Bytes) (other : b ≠ 0x65 ∧ b ≠ 0x45) :
    ¬ EndsEscapeMark (front ++ [b]) := by
  rw [endsEscapeMark_concat]
  rintro ⟨isMark, -⟩
  exact isMark.elim other.1 other.2

theorem alike_placeholder {rest : Bytes} (apart : ¬ StartsIdentifier rest) (n : Nat) :
    Alike (before ++ [questionMark]) (before' ++ utf8 (Fragments.placeholder n)) rest := by
  refine ⟨?_, fun starts => absurd starts apart⟩
  have digits := isDigitByte_digits n
  obtain ⟨front, d, shape⟩ := (List.eq_nil_or_concat _).resolve_left (digits_ne_nil n)
  rw [List.concat_eq_append] at shape
  have last : isDigitByte d := digits d (by simp [shape])
  rw [Fragments.placeholder, utf8_dollar, shape, ← List.cons_append, ← List.append_assoc]
  apply iff_of_false (not_endsEscapeMark _ (by decide)) (not_endsEscapeMark _ ?_)
  constructor <;> rintro rfl <;> simp [isDigitByte] at last

end

@[simp] theorem numberMarks_nil (n : Nat) : numberMarks n [] = [] := rfl

theorem numberMarks_mark (n : Nat) (later : List Segment) :
    numberMarks n (.mark :: later) = plain (Fragments.placeholder n) ++ numberMarks (n + 1) later := rfl

theorem numberMarks_cons {segment : Segment} (other : segment ≠ .mark) (n : Nat) (later : List Segment) :
    numberMarks n (segment :: later) = segment :: numberMarks n later := by
  cases segment with
  | mark => exact absurd rfl other
  | _ => rfl

theorem numberMarks_append {front : List Segment} (absent : .mark ∉ front) (n : Nat) (later : List Segment) :
    numberMarks n (front ++ later) = front ++ numberMarks n later := by
  induction front with
  | nil => rfl
  | cons segment front ih =>
    rw [List.mem_cons, not_or] at absent
    rw [List.cons_append, numberMarks_cons (Ne.symm absent.1), ih absent.2, List.cons_append]

@[simp] theorem marksApart_nil (before : Bytes) : MarksApart before [] := by
  intro front back same
  exact absurd same.symm (by simp)

theorem marksApart_cons {before : Bytes} {segment : Segment} {later : List Segment} :
    MarksApart before (segment :: later) ↔
      (segment = .mark → ¬ EndsIdentifier before ∧ ¬ StartsIdentifier (bytesOf later)) ∧
        MarksApart (before ++ segment.bytes) later := by
  constructor
  · intro apart
    constructor
    · rintro rfl
      simpa using apart [] later rfl
    · rintro front back rfl
      simpa using apart (segment :: front) back rfl
  · rintro ⟨first, apart⟩ front back same
    rcases List.cons_eq_append_iff.1 same with ⟨rfl, same⟩ | ⟨front, rfl, rfl⟩
    · cases same
      simpa using first rfl
    · simpa using apart front back rfl

theorem Reads.numbered {standard : Bool} {before before' : Bytes} {segment : Segment} {later : List Segment} (n : Nat)
    (reads : Reads standard before' (bytesOf later) segment) (apart : MarksApart before (segment :: later)) :
    Reads standard before' (bytesOf (numberMarks n later)) segment := by
  by_cases member : .mark ∈ later
  · obtain ⟨front, back, rfl, absent⟩ := List.eq_append_cons_of_mem member
    have free := (apart (segment :: front) back rfl).1
    rw [bytesOf, List.flatMap_cons, endsIdentifier_of_ne_nil (by simp [reads.bytes_ne_nil])] at free
    rw [numberMarks_append absent, numberMarks_mark, plain_placeholder, bytesOf_append]
    rw [bytesOf_append] at reads
    exact reads.of_mark free
  · have same := numberMarks_append member n []
    rw [List.append_nil, numberMarks_nil, List.append_nil] at same
    rwa [same]

theorem Segmentation.numbered {standard : Bool} {before before' : Bytes} {segments : List Segment} (n : Nat)
    (h : Segmentation standard before segments []) (apart : MarksApart before segments)
    (alike : Alike before before' (bytesOf segments)) : Segmentation standard before' (numberMarks n segments) [] := by
  induction segments generalizing before before' n with
  | nil => exact .nil
  | cons segment later ih =>
    cases h with
    | cons reads h =>
      rw [List.append_nil] at reads
      by_cases isMark : segment = .mark
      · subst isMark
        have behind := (apart [] later rfl).2
        rw [numberMarks_mark]
        apply Segmentation.append (segmentation_placeholder n _ _)
        apply ih (n + 1) h (marksApart_cons.1 apart).2
        rw [plain, bytesOf_map_other]
        exact alike_placeholder behind n
      · rw [numberMarks_cons isMark]
        have next := ih n h (marksApart_cons.1 apart).2 (alike.append reads.bytes_ne_nil)
        apply Segmentation.cons _ next
        rw [List.append_nil]
        exact (reads.alike alike).numbered n apart

theorem fragmentsOf_ne_nil (segments : List Segment) : fragmentsOf segments ≠ [] := by
  rw [← List.length_pos_iff, length_fragmentsOf]
  exact Nat.succ_pos _

theorem kept_eq_bytes {segment : Segment} (single : segment ≠ .escapedMark) : segment.kept = segment.bytes := by
  cases segment with
  | escapedMark => exact absurd rfl single
  | _ => rfl

theorem utf8_numbered {segments : List Segment} (single : .escapedMark ∉ segments) (n : Nat) {first : Bytes}
    {later : List Text} (parts : fragmentsOf segments = first :: later.map utf8) :
    bytesOf (numberMarks n segments) = first ++ utf8 (Fragments.numbered n later) := by
  induction segments generalizing n first later with
  | nil =>
    rw [fragmentsOf_nil, List.cons.injEq] at parts
    obtain ⟨rfl, none⟩ := parts
    rw [List.map_eq_nil_iff.1 none.symm]
    simp
  | cons segment segments ih =>
    rw [List.mem_cons, not_or] at single
    by_cases isMark : segment = .mark
    · subst isMark
      rw [fragmentsOf_mark, List.cons.injEq] at parts
      obtain ⟨rfl, parts⟩ := parts
      cases later with
      | nil => exact absurd parts (fragmentsOf_ne_nil segments)
      | cons part later =>
        rw [numberMarks_mark, bytesOf_append, plain, bytesOf_map_other, ih single.2 (n + 1) parts]
        simp
    · rw [fragmentsOf_cons isMark, kept_eq_bytes (Ne.symm single.1)] at parts
      cases rest : fragmentsOf segments with
      | nil => exact absurd rest (fragmentsOf_ne_nil segments)
      | cons run runs =>
        rw [rest, List.modifyHead_cons, List.cons.injEq] at parts
        obtain ⟨rfl, rfl⟩ := parts
        rw [numberMarks_cons isMark, bytesOf, List.flatMap_cons, ← bytesOf, ih single.2 n rest, List.append_assoc]

theorem mem_numberMarks {segment : Segment} {segments : List Segment} {n : Nat}
    (member : segment ∈ numberMarks n segments) :
    (∃ b, segment = .other b) ∨ segment ∈ segments ∧ segment ≠ .mark := by
  induction segments generalizing n with
  | nil => cases member
  | cons first later ih =>
    by_cases isMark : first = .mark
    · subst isMark
      rw [numberMarks_mark, List.mem_append] at member
      rcases member with placeholder | behind
      · obtain ⟨b, -, rfl⟩ := List.mem_map.1 placeholder
        exact .inl ⟨b, rfl⟩
      · exact (ih behind).imp_right fun old => ⟨List.mem_cons_of_mem _ old.1, old.2⟩
    · rw [numberMarks_cons isMark, List.mem_cons] at member
      rcases member with rfl | behind
      · exact .inr ⟨List.mem_cons_self, isMark⟩
      · exact (ih behind).imp_right fun old => ⟨List.mem_cons_of_mem _ old.1, old.2⟩

theorem fragmentsOf_numberMarks {segments : List Segment} (single : .escapedMark ∉ segments) (n : Nat) :
    fragmentsOf (numberMarks n segments) = [bytesOf (numberMarks n segments)] := by
  have absent : .mark ∉ numberMarks n segments := by
    intro member
    rcases mem_numberMarks member with ⟨b, impossible⟩ | ⟨-, other⟩
    · cases impossible
    · exact other rfl
  have whole : (numberMarks n segments).flatMap Segment.kept = bytesOf (numberMarks n segments) := by
    apply List.flatMap_congr
    intro segment member
    apply kept_eq_bytes
    rintro rfl
    rcases mem_numberMarks member with ⟨b, impossible⟩ | ⟨old, -⟩
    · cases impossible
    · exact single old
  rw [fragmentsOf_single absent, whole]

theorem filter_numberMarks (segments : List Segment) (n : Nat) :
    (numberMarks n segments).filter Segment.isConstruct = segments.filter Segment.isConstruct := by
  induction segments generalizing n with
  | nil => rfl
  | cons segment segments ih =>
    by_cases isMark : segment = .mark
    · subst isMark
      have nothing : (plain (Fragments.placeholder n)).filter Segment.isConstruct = [] := by
        simp [plain, Segment.isConstruct]
      rw [numberMarks_mark, List.filter_append, nothing, ih]
      rfl
    · rw [numberMarks_cons isMark, List.filter_cons, List.filter_cons, ih]

end Grammar

open Grammar

/-- A text without `??` at top level, in which no identifier byte stands next to a mark, is read in the same way
once its marks are numbered: its constructs stay, and everything else is one fragment. -/
theorem native_segmentation {standard : Bool} {text : Text} {fragments : Fragments} {segments : List Segment}
    (divided : split standard text = .ok fragments) (isSegmentation : IsSegmentation standard (utf8 text) segments)
    (single : .escapedMark ∉ segments) (apart : MarksApart [] segments) :
    split standard fragments.native = .ok ⟨fragments.native, []⟩ ∧
      IsSegmentation standard (utf8 fragments.native) (numberMarks 1 segments) ∧
      (∀ others, IsSegmentation standard (utf8 fragments.native) others → others = numberMarks 1 segments) ∧
      (numberMarks 1 segments).filter Segment.isConstruct = segments.filter Segment.isConstruct := by
  obtain ⟨found, done, parts⟩ := isSegmentation.split
  cases divided.symm.trans done
  have bytes : bytesOf (numberMarks 1 segments) = utf8 fragments.native := by
    rw [utf8_numbered single 1 parts.symm, ← utf8_append]
    rfl
  have numbered : IsSegmentation standard (utf8 fragments.native) (numberMarks 1 segments) := by
    refine ⟨isSegmentation.1.numbered 1 apart ⟨Iff.rfl, fun _ => Iff.rfl⟩, bytes⟩
  refine ⟨?_, numbered, fun _ others => others.unique numbered, filter_numberMarks segments 1⟩
  obtain ⟨whole, done', parts'⟩ := numbered.split
  rw [fragmentsOf_numberMarks single, bytes, ← List.map_singleton] at parts'
  have injective : Function.Injective utf8 := fun _ _ => utf8_injective
  rw [done']
  exact congrArg _ (Fragments.parts_injective (List.map_injective_iff.2 injective parts'))

def comparedText : Text := "?=e'\\'?'-?".toList

def comparedSegments : List Segment :=
  [.mark, .other 0x3D, .other 0x65, .enclosed .literal ([quote] ++ [backslash, quote, questionMark, quote]),
    .other dash, .mark]

theorem isSegmentation_compared : IsSegmentation true (utf8 comparedText) comparedSegments := by
  have escapes : EndsEscapeMark ([questionMark, 0x3D] ++ [0x65]) :=
    (endsEscapeMark_concat _ _).2 ⟨.inl rfl, by simp [EndsIdentifier, isIdentifierByte, isDigitByte]⟩
  have tail : LiteralTail true [backslash, quote, questionMark, quote] :=
    .escaped rfl (.other (by decide) (by decide) .close)
  have ordinary : ∀ b ∈ ([0x3D, 0x65] : Bytes), ¬ IsSpecial b := by simp [IsSpecial]
  constructor
  · have name (rest : Bytes) : Segmentation true [questionMark] [.other 0x3D, .other 0x65] rest :=
      segmentation_other ordinary
    refine .cons (.mark (by decide)) (.append (name _) ?_)
    refine .cons (.enclosed .literal (.literal ⟨fun _ => .inr escapes, fun _ => rfl⟩ tail (by decide))) ?_
    refine .cons (.other (by decide) (by decide) ?_) (.cons (.mark (by decide)) .nil)
    apply not_opens_of_head <;> decide
  · decide

theorem marksApart_compared : MarksApart [] comparedSegments := by
  simp [comparedSegments, marksApart_cons, EndsIdentifier, StartsIdentifier, Segment.bytes, isIdentifierByte,
    isDigitByte]

theorem native_segmentation_compared :
    split true comparedText = .ok ⟨[], ["=e'\\'?'-".toList, []]⟩ ∧ .escapedMark ∉ comparedSegments ∧
      MarksApart [] comparedSegments ∧
      split true "$1=e'\\'?'-$2".toList = .ok ⟨"$1=e'\\'?'-$2".toList, []⟩ := by
  have divided : split true comparedText = .ok ⟨[], ["=e'\\'?'-".toList, []]⟩ := by cbv
  have single : .escapedMark ∉ comparedSegments := by decide
  have read := native_segmentation divided isSegmentation_compared single marksApart_compared
  exact ⟨divided, single, marksApart_compared, read.1⟩

end ExtendedQuery.Sql
