import ExtendedQuery.Proofs.Sql.Growth
import ExtendedQuery.Proofs.Sql.Scan

/-!
# Inserts of a single row

An insert is recognised by its fragments, from which nothing tells what encloses their text. Behind `INSERT` a
construct would show: it starts with a byte that neither the keywords nor the group have, and ends with one as
well, unless it is a line comment, which ends with a line break. So the keywords and the group stand on their
own (`SingleRow`), or a line comment ends in `VALUES` or in `VALUES (` (`Masked`). Main statement:
`growable_segments`.
-/

namespace ExtendedQuery.Sql

open Text

/-! ## Keywords at the ends of a text -/

theorem startsWithKeyword_some {keyword text : Text} (starts : startsWithKeyword keyword text = true) :
    ∃ word rest, text = word ++ rest ∧ foldCase word = keyword ∧ ¬ rest.head?.any isIdentifierChar = true := by
  unfold startsWithKeyword at starts
  rw [Bool.and_eq_true, beq_iff_eq, Bool.not_eq_true'] at starts
  refine ⟨_, _, (List.take_append_drop keyword.length text).symm, starts.1, ?_⟩
  rw [starts.2]
  exact Bool.false_ne_true

theorem endsWithKeyword_some {keyword text : Text} (ends : endsWithKeyword keyword text = true) :
    ∃ front word, text = front ++ word ∧ foldCase word = keyword ∧
      ¬ front.reverse.head?.any isIdentifierChar = true := by
  unfold endsWithKeyword at ends
  rw [Bool.and_eq_true, beq_iff_eq, Bool.not_eq_true'] at ends
  refine ⟨(text.reverse.drop keyword.length).reverse, (text.reverse.take keyword.length).reverse, ?_, ?_, ?_⟩
  · rw [← List.reverse_append, List.take_append_drop, List.reverse_reverse]
  · rw [foldCase, List.map_reverse, ← foldCase, ends.1, List.reverse_reverse]
  · rw [List.reverse_reverse, ends.2]
    exact Bool.false_ne_true

theorem trimStart_append (text : Text) : ∃ blank, isAllBlank blank = true ∧ text = blank ++ trimStart text :=
  ⟨_, List.all_takeWhile, List.takeWhile_append_dropWhile.symm⟩

theorem trimEnd_append (text : Text) : ∃ blank, isAllBlank blank = true ∧ text = trimEnd text ++ blank := by
  obtain ⟨blank, isBlank, same⟩ := trimStart_append text.reverse
  refine ⟨blank.reverse, ?_, ?_⟩
  · rw [isAllBlank, List.all_reverse]
    exact isBlank
  · rw [← List.reverse_inj, same, trimEnd, List.reverse_append, List.reverse_reverse, List.reverse_reverse]
    rfl

theorem trim_single {text : Text} {c : Char} (trimmed : trim text = [c]) :
    ∃ before after, text = before ++ c :: after ∧ isAllBlank before = true ∧ isAllBlank after = true := by
  obtain ⟨before, isBefore, same⟩ := trimStart_append text
  obtain ⟨after, isAfter, same'⟩ := trimEnd_append (trimStart text)
  rw [← trim, trimmed] at same'
  refine ⟨before, after, ?_, isBefore, isAfter⟩
  rw [same, same']
  rfl

theorem opensValues_some {text : Text} (opens : opensValues text = true) :
    ∃ blank insert rest front values gap gap', text = blank ++ (insert ++ rest) ∧
      insert ++ rest = front ++ (values ++ gap ++ '(' :: gap') ∧ isAllBlank blank = true ∧
      foldCase insert = "insert".toList ∧ foldCase values = "values".toList ∧ isAllBlank gap = true ∧
      isAllBlank gap' = true ∧ ¬ rest.head?.any isIdentifierChar = true ∧
      ¬ front.reverse.head?.any isIdentifierChar = true := by
  unfold opensValues at opens
  rw [Bool.and_eq_true] at opens
  obtain ⟨starts, opens⟩ := opens
  obtain ⟨blank, isBlank, same⟩ := trimStart_append text
  obtain ⟨gap', isGap', same'⟩ := trimEnd_append (trimStart text)
  obtain ⟨insert, rest, shape, isInsert, bound⟩ := startsWithKeyword_some starts
  split at opens
  · rename_i before parenthesis
    obtain ⟨gap, isGap, inner⟩ := trimEnd_append before.reverse
    obtain ⟨front, values, ends, isValues, bound'⟩ := endsWithKeyword_some opens
    refine ⟨blank, insert, rest, front, values, gap, gap', shape ▸ same, ?_, isBlank, isInsert, isValues, isGap,
      isGap', bound, bound'⟩
    have reversed := congrArg List.reverse parenthesis
    rw [List.reverse_reverse, List.reverse_cons, inner, ends] at reversed
    rw [← shape, same', reversed]
    simp
  · cases opens

theorem insert_before_values {insert rest front tail values : Text} (isInsert : foldCase insert = "insert".toList)
    (isValues : foldCase values = "values".toList) (same : insert ++ rest = front ++ (values ++ tail)) :
    ∃ middle, front = insert ++ middle ∧ rest = middle ++ (values ++ tail) := by
  rcases List.append_eq_append_iff.1 same with ⟨middle, first, second⟩ | ⟨inner, first, second⟩
  · exact ⟨middle, first, second⟩
  · cases inner with
    | nil => exact ⟨[], by simpa using first.symm, by simpa using second.symm⟩
    | cons c inner =>
      cases values with
      | nil => cases isValues
      | cons v values =>
        have isV : v.toLower = 'v' := (List.cons.inj isValues).1
        have member : v.toLower ∈ "insert".toList := by
          rw [← isInsert, first, (List.cons.inj second).1]
          exact List.mem_map_of_mem (List.mem_append_right front List.mem_cons_self)
        rw [isV] at member
        exact absurd member (by decide)

theorem isOrdinary_of_foldCase {word keyword : Text} (same : foldCase word = keyword)
    (ordinary : ∀ c ∈ keyword, Lexeme.IsOrdinary c) : ∀ c ∈ word, Lexeme.IsOrdinary c := by
  intro c inside member
  have folded : c.toLower ∈ keyword := by
    rw [← same]
    exact List.mem_map_of_mem inside
  have fixed : c.toLower = c := by
    simp only [List.mem_cons, List.not_mem_nil, or_false] at member
    rcases member with rfl | rfl | rfl | rfl | rfl | rfl <;> rfl
  rw [fixed] at folded
  exact ordinary c folded member

theorem isAllBlank_append {text others : Text} :
    isAllBlank (text ++ others) = true ↔ isAllBlank text = true ∧ isAllBlank others = true := by
  rw [isAllBlank, List.all_append, Bool.and_eq_true]
  rfl

theorem isAllBlank_cons {c : Char} {text : Text} :
    isAllBlank (c :: text) = true ↔ isBlank c = true ∧ isAllBlank text = true := by
  rw [isAllBlank, List.all_cons, Bool.and_eq_true]
  rfl

theorem isOrdinary_of_isAllBlank {text : Text} (blank : isAllBlank text = true) :
    ∀ c ∈ text, Lexeme.IsOrdinary c := fun c inside =>
  Fragments.isOrdinary_of_isBlank (List.all_eq_true.1 blank c inside)

theorem isOrdinary_around {before after : Text} {c : Char} (isBefore : isAllBlank before = true)
    (isAfter : isAllBlank after = true) (alone : Lexeme.IsOrdinary c) :
    ∀ d ∈ before ++ c :: after, Lexeme.IsOrdinary d := by
  have behind := List.forall_mem_cons.2 ⟨alone, isOrdinary_of_isAllBlank isAfter⟩
  exact List.forall_mem_append.2 ⟨isOrdinary_of_isAllBlank isBefore, behind⟩

namespace Grammar

/-! ## Bytes that show a construct -/

theorem not_isSpecial_utf8 {text : Text} (ordinary : ∀ c ∈ text, Lexeme.IsOrdinary c) :
    ∀ b ∈ utf8 text, ¬ IsSpecial b := by
  have absent {a : Char} (small : a.toNat < 0x80) (special : ¬ Lexeme.IsOrdinary a) : ascii a ∉ utf8 text :=
    fun member => special (ordinary a ((mem_utf8 small).1 member))
  rintro b member (rfl | rfl | rfl | rfl | rfl | rfl)
  · exact absent (a := '\x27') (by decide) (by simp [Lexeme.IsOrdinary]) member
  · exact absent (a := '"') (by decide) (by simp [Lexeme.IsOrdinary]) member
  · exact absent (a := '-') (by decide) (by simp [Lexeme.IsOrdinary]) member
  · exact absent (a := '/') (by decide) (by simp [Lexeme.IsOrdinary]) member
  · exact absent (a := '$') (by decide) (by simp [Lexeme.IsOrdinary]) member
  · exact absent (a := '?') (by decide) (by simp [Lexeme.IsOrdinary]) member

theorem Opens.special {before opening : Bytes} {construct : Construct} (opens : Opens before construct opening) :
    ∃ b rest, opening = b :: rest ∧ IsSpecial b := by
  cases opens with
  | literal => exact ⟨quote, [], rfl, by simp [IsSpecial]⟩
  | identifier => exact ⟨doubleQuote, [], rfl, by simp [IsSpecial]⟩
  | comment => exact ⟨slash, [star], rfl, by simp [IsSpecial]⟩
  | dollarQuote => exact ⟨dollar, _, rfl, by simp [IsSpecial]⟩

theorem LiteralTail.ends {escapes : Bool} {tail : Bytes} (h : LiteralTail escapes tail) :
    ∃ front, tail = front ++ [quote] := by
  induction h with
  | close => exact ⟨[], rfl⟩
  | doubled _ ih =>
    obtain ⟨front, rfl⟩ := ih
    exact ⟨quote :: quote :: front, rfl⟩
  | @escaped b _ _ _ ih =>
    obtain ⟨front, rfl⟩ := ih
    exact ⟨backslash :: b :: front, rfl⟩
  | @other b _ _ _ _ ih =>
    obtain ⟨front, rfl⟩ := ih
    exact ⟨b :: front, rfl⟩

theorem CommentTail.ends {tail : Bytes} (h : CommentTail tail) : ∃ front, tail = front ++ [slash] := by
  induction h with
  | close => exact ⟨[star], rfl⟩
  | @nested inner _ _ _ _ ih =>
    obtain ⟨front, rfl⟩ := ih
    exact ⟨slash :: star :: (inner ++ front), by simp⟩
  | @other b _ _ _ _ ih =>
    obtain ⟨front, rfl⟩ := ih
    exact ⟨b :: front, rfl⟩

theorem Closes.special {standard : Bool} {before later opening tail : Bytes} {construct : Construct}
    (opens : Opens before construct opening) (closes : Closes standard before later construct tail) :
    ∃ front b, tail = front ++ [b] ∧ IsSpecial b := by
  cases closes with
  | literal _ ends =>
    obtain ⟨front, rfl⟩ := ends.ends
    exact ⟨front, quote, rfl, by simp [IsSpecial]⟩
  | @identifier name => exact ⟨name, doubleQuote, rfl, by simp [IsSpecial]⟩
  | comment ends =>
    obtain ⟨front, rfl⟩ := ends.ends
    exact ⟨front, slash, rfl, by simp [IsSpecial]⟩
  | @dollarQuote _ content =>
    cases opens with
    | @dollarQuote name => exact ⟨content ++ dollar :: utf8 name, dollar, by simp, by simp [IsSpecial]⟩

def Segment.Occurs (segment : Segment) : Prop := ∃ standard before later, Reads standard before later segment

def Segment.OccursInside (segment : Segment) : Prop :=
  ∃ standard before later, later ≠ [] ∧ Reads standard before later segment

theorem Segment.OccursInside.occurs {segment : Segment} (h : segment.OccursInside) : segment.Occurs := by
  obtain ⟨standard, before, later, -, reads⟩ := h
  exact ⟨standard, before, later, reads⟩

theorem Segment.Occurs.head {segment : Segment} (occurs : segment.Occurs) :
    (∃ b, segment = .other b) ∨ ∃ b rest, segment.kept = b :: rest ∧ IsSpecial b := by
  obtain ⟨standard, before, later, reads⟩ := occurs
  cases reads with
  | enclosed opens =>
    obtain ⟨b, rest, rfl, special⟩ := opens.special
    exact .inr ⟨b, _, rfl, special⟩
  | lineComment => exact .inr ⟨dash, _, rfl, by simp [IsSpecial]⟩
  | escapedMark => exact .inr ⟨questionMark, [], rfl, by simp [IsSpecial]⟩
  | mark => exact .inr ⟨questionMark, [], rfl, by simp [IsSpecial]⟩
  | @other b => exact .inl ⟨b, rfl⟩

theorem Segment.OccursInside.last {segment : Segment} (occurs : segment.OccursInside) :
    (∃ b, segment = .other b) ∨ (∃ front b, segment.kept = front ++ [b] ∧ IsSpecial b) ∨
      ∃ content b, segment = .lineComment (dash :: dash :: content ++ [b]) ∧ isLineEnd b := by
  obtain ⟨standard, before, later, inside, reads⟩ := occurs
  cases reads with
  | @enclosed _ opening _ opens closes =>
    obtain ⟨front, b, rfl, special⟩ := Closes.special opens closes
    exact .inr (.inl ⟨opening ++ front, b, (List.append_assoc opening front [b]).symm, special⟩)
  | @lineComment content _ _ ends =>
    rcases ends with ⟨-, none⟩ | ⟨b, isEnd, rfl⟩
    · exact absurd none inside
    · exact .inr (.inr ⟨content, b, rfl, isEnd⟩)
  | escapedMark => exact .inr (.inl ⟨[], questionMark, rfl, by simp [IsSpecial]⟩)
  | mark => exact .inr (.inl ⟨[], questionMark, rfl, by simp [IsSpecial]⟩)
  | @other b => exact .inl ⟨b, rfl⟩

/-! ## Text that stands on its own -/

def plain (text : Text) : List Segment := (utf8 text).map .other

theorem plain_front {segments : List Segment} (occurs : ∀ s ∈ segments, s.Occurs) {x y : Bytes}
    (ordinary : ∀ b ∈ x, ¬ IsSpecial b) (kept : segments.flatMap Segment.kept = x ++ y) :
    ∃ others, segments = x.map .other ++ others ∧ others.flatMap Segment.kept = y := by
  induction x generalizing segments with
  | nil => exact ⟨segments, rfl, kept⟩
  | cons b x ih =>
    cases segments with
    | nil => cases kept
    | cons segment segments =>
      rw [List.flatMap_cons] at kept
      rcases (occurs segment (by simp)).head with ⟨c, rfl⟩ | ⟨c, rest, same, special⟩
      · change c :: segments.flatMap Segment.kept = b :: (x ++ y) at kept
        obtain ⟨rfl, rests⟩ := List.cons.inj kept
        obtain ⟨others, rfl, later⟩ := ih (fun s member => occurs s (List.mem_cons_of_mem _ member))
          (fun d member => ordinary d (List.mem_cons_of_mem _ member)) rests
        exact ⟨others, rfl, later⟩
      · rw [same] at kept
        obtain ⟨rfl, -⟩ := List.cons.inj kept
        exact absurd special (ordinary c (by simp))

theorem dashes_append {content inner y : Bytes} (noDash : dash ∉ y)
    (same : dash :: dash :: content = inner ++ y) :
    ∃ inner', inner = dash :: dash :: inner' ∧ content = inner' ++ y := by
  match inner with
  | [] =>
    obtain rfl : dash :: dash :: content = y := same
    exact absurd List.mem_cons_self noDash
  | [_] =>
    obtain rfl : dash :: content = y := (List.cons.inj same).2
    exact absurd List.mem_cons_self noDash
  | _ :: _ :: inner =>
    obtain ⟨first, same⟩ := List.cons.inj same
    obtain ⟨second, same⟩ := List.cons.inj same
    exact ⟨inner, by rw [← first, ← second], same⟩

theorem plain_back {segments : List Segment} (occurs : ∀ s ∈ segments, s.OccursInside) {x y : Bytes}
    (ordinary : ∀ b ∈ y, ¬ IsSpecial b) (kept : segments.flatMap Segment.kept = x ++ y) :
    (∃ others, segments = others ++ y.map .other ∧ others.flatMap Segment.kept = x) ∨
      ∃ others content inner b outer, y = inner ++ b :: outer ∧ isLineEnd b ∧
        segments = others ++ .lineComment (dash :: dash :: content ++ inner ++ [b]) :: outer.map .other ∧
        others.flatMap Segment.kept ++ dash :: dash :: content = x := by
  induction y using List.reverseRecOn generalizing segments with
  | nil => exact .inl ⟨segments, by simp, by simpa using kept⟩
  | append_singleton y b ih =>
    rcases List.eq_nil_or_concat segments with rfl | ⟨front, segment, rfl⟩
    · rw [List.flatMap_nil, ← List.append_assoc] at kept
      exact absurd kept.symm (by simp)
    · rw [List.concat_eq_append] at occurs kept ⊢
      rw [List.flatMap_append, List.flatMap_singleton, ← List.append_assoc] at kept
      have ordinary' : ∀ c ∈ y, ¬ IsSpecial c := fun c member => ordinary c (by simp [member])
      rcases (occurs segment (by simp)).last with ⟨c, rfl⟩ | ⟨start, c, same, special⟩ | ⟨content, c, rfl, isEnd⟩
      · obtain ⟨rests, last⟩ := List.append_inj' kept rfl
        cases last
        rcases ih (fun s member => occurs s (List.mem_append_left _ member)) ordinary' rests with
          ⟨others, rfl, rest⟩ | ⟨others, content, inner, c, outer, rfl, isEnd, rfl, rest⟩
        · exact .inl ⟨others, by simp, rest⟩
        · exact .inr ⟨others, content, inner, c, outer ++ [b], by simp, isEnd, by simp, rest⟩
      · rw [same, ← List.append_assoc] at kept
        obtain ⟨-, last⟩ := List.append_inj' kept rfl
        cases last
        exact absurd special (ordinary b (by simp))
      · change front.flatMap Segment.kept ++ (dash :: dash :: content ++ [c]) = _ at kept
        rw [← List.append_assoc] at kept
        obtain ⟨rests, last⟩ := List.append_inj' kept rfl
        cases last
        have noDash : dash ∉ y := fun member => absurd (by simp [IsSpecial]) (ordinary' dash member)
        rcases List.append_eq_append_iff.1 rests with ⟨inner, rfl, second⟩ | ⟨inner, -, second⟩
        · obtain ⟨inner, rfl, rfl⟩ := dashes_append noDash second
          exact .inr ⟨front, inner, y, b, [], rfl, isEnd, rfl, rfl⟩
        · exact absurd (by simp [second]) noDash

theorem Segment.Occurs.kept_ne_nil {segment : Segment} (occurs : segment.Occurs) : segment.kept ≠ [] := by
  rcases occurs.head with ⟨b, rfl⟩ | ⟨b, rest, same, -⟩
  · simp [Segment.kept, Segment.bytes]
  · simp [same]

theorem plain_of_kept {segments : List Segment} (occurs : ∀ s ∈ segments, s.Occurs) {text : Text}
    (ordinary : ∀ c ∈ text, Lexeme.IsOrdinary c) (kept : segments.flatMap Segment.kept = utf8 text) :
    segments = plain text := by
  rw [← List.append_nil (utf8 text)] at kept
  obtain ⟨others, rfl, none⟩ := plain_front occurs (not_isSpecial_utf8 ordinary) kept
  cases others with
  | nil => exact List.append_nil _
  | cons segment others =>
    rw [List.flatMap_cons, List.append_eq_nil_iff] at none
    exact absurd none.1 (occurs segment (by simp)).kept_ne_nil

theorem head?_kept (segments : List Segment) :
    (segments.flatMap Segment.kept).head? = (bytesOf segments).head? := by
  induction segments with
  | nil => rfl
  | cons segment segments ih =>
    rw [List.flatMap_cons, bytesOf, List.flatMap_cons, ← bytesOf, List.head?_append, List.head?_append, ih]
    cases segment <;> rfl

theorem bytesOf_singleton (segment : Segment) : bytesOf [segment] = segment.bytes := List.flatMap_singleton _ _

theorem getLast?_kept (segments : List Segment) :
    (segments.flatMap Segment.kept).getLast? = (bytesOf segments).getLast? := by
  induction segments using List.reverseRecOn with
  | nil => rfl
  | append_singleton segments segment ih =>
    rw [List.flatMap_append, List.flatMap_singleton, bytesOf_append, List.getLast?_append, List.getLast?_append, ih,
      bytesOf_singleton]
    cases segment <;> rfl

theorem fragmentsOf_single {segments : List Segment} (absent : .mark ∉ segments) :
    fragmentsOf segments = [segments.flatMap Segment.kept] := by
  have whole := fragmentsOf_append absent []
  rw [List.append_nil] at whole
  rw [whole, fragmentsOf_nil, List.modifyHead_cons, List.append_nil]

theorem fragmentsOf_several {segments : List Segment} (member : .mark ∈ segments) :
    ∃ front later, segments = front ++ .mark :: later ∧ .mark ∉ front ∧
      fragmentsOf segments = front.flatMap Segment.kept :: fragmentsOf later := by
  obtain ⟨front, later, rfl, absent⟩ := List.eq_append_cons_of_mem member
  refine ⟨front, later, rfl, absent, ?_⟩
  rw [fragmentsOf_append absent, fragmentsOf_mark, List.modifyHead_cons, List.append_nil]

theorem mark_mem_of_length {segments : List Segment} (several : 1 < (fragmentsOf segments).length) :
    .mark ∈ segments := by
  rw [length_fragmentsOf] at several
  exact List.count_pos_iff.1 (by omega)

theorem mark_not_mem_of_length {segments : List Segment} (single : (fragmentsOf segments).length = 1) :
    .mark ∉ segments := by
  rw [length_fragmentsOf] at single
  exact List.count_eq_zero.1 (by omega)

/-! ## The shape of an insert -/

def StartsIdentifier (later : Bytes) : Prop := ∃ b ∈ later.head?, isIdentifierByte b

def StartsInsert (segments : List Segment) : Prop :=
  ∃ blank insert rest, segments = plain (blank ++ insert) ++ rest ∧ isAllBlank blank = true ∧
    foldCase insert = "insert".toList ∧ ¬ StartsIdentifier (bytesOf rest)

inductive OpensGroup : List Segment → Prop
  | mk {values gap gap' : Text} : foldCase values = "values".toList → isAllBlank gap = true →
      isAllBlank gap' = true → OpensGroup (plain (values ++ gap ++ '(' :: gap'))

/-- A line comment ends in the keyword `VALUES`, a word of its own, or in the parenthesis behind it as well. -/
inductive MasksGroup : List Segment → Prop
  | keyword {content : Bytes} {values gap gap' gap'' : Text} {b : UInt8} :
      ¬ EndsIdentifier (dash :: dash :: content) → foldCase values = "values".toList → isAllBlank gap = true →
      isLineEnd b → isAllBlank gap' = true → isAllBlank gap'' = true →
      MasksGroup (.lineComment (dash :: dash :: content ++ utf8 (values ++ gap) ++ [b]) ::
        plain (gap' ++ '(' :: gap''))
  | opening {content : Bytes} {values gap gap' gap'' : Text} {b : UInt8} :
      ¬ EndsIdentifier (dash :: dash :: content) → foldCase values = "values".toList → isAllBlank gap = true →
      isAllBlank gap' = true → isLineEnd b → isAllBlank gap'' = true →
      MasksGroup (.lineComment (dash :: dash :: content ++ utf8 (values ++ gap ++ '(' :: gap') ++ [b]) ::
        plain gap'')

/-- What follows the first placeholder: commas between placeholders, the closing parenthesis and the end. -/
inductive ClosesGroup : List Segment → Prop
  | last {before after : Text} : isAllBlank before = true → isAllBlank after = true →
      ClosesGroup (plain (before ++ ')' :: after))
  | next {before after : Text} {later : List Segment} : isAllBlank before = true → isAllBlank after = true →
      ClosesGroup later → ClosesGroup (plain (before ++ ',' :: after) ++ .mark :: later)

/-- The keywords and the only group of the insert stand on their own. -/
def SingleRow (segments : List Segment) : Prop :=
  ∃ front opening closing, segments = front ++ opening ++ .mark :: closing ∧ .mark ∉ front ∧ StartsInsert front ∧
    ¬ EndsIdentifier (bytesOf front) ∧ OpensGroup opening ∧ ClosesGroup closing

/-- As `SingleRow`, but the group opens in a line comment. -/
def Masked (segments : List Segment) : Prop :=
  ∃ front opening closing, segments = front ++ opening ++ .mark :: closing ∧ .mark ∉ front ∧ StartsInsert front ∧
    MasksGroup opening ∧ ClosesGroup closing

theorem closesGroup_of_closesValues {later : List Text} (closes : closesValues later = true)
    {segments : List Segment} (occurs : ∀ s ∈ segments, s.Occurs) (parts : later.map utf8 = fragmentsOf segments) :
    ClosesGroup segments := by
  fun_induction closesValues later generalizing segments with
  | case1 => cases closes
  | case2 last =>
    obtain ⟨before, after, rfl, isBefore, isAfter⟩ := trim_single (beq_iff_eq.1 closes)
    have absent : .mark ∉ segments := mark_not_mem_of_length (by rw [← parts]; rfl)
    rw [fragmentsOf_single absent, List.map_singleton, List.singleton_inj] at parts
    rw [plain_of_kept occurs (isOrdinary_around isBefore isAfter (by simp [Lexeme.IsOrdinary])) parts.symm]
    exact .last isBefore isAfter
  | case3 separator later several ih =>
    rw [Bool.and_eq_true, beq_iff_eq] at closes
    obtain ⟨before, after, rfl, isBefore, isAfter⟩ := trim_single closes.1
    have nonempty : later ≠ [] := by
      rintro rfl
      cases closes.2
    have length := List.length_pos_iff.2 nonempty
    have member : .mark ∈ segments := mark_mem_of_length (by rw [← parts]; simp; omega)
    obtain ⟨front, others, rfl, -, fragments⟩ := fragmentsOf_several member
    rw [fragments, List.map_cons, List.cons.injEq] at parts
    rw [plain_of_kept (fun s inside => occurs s (List.mem_append_left _ inside))
      (isOrdinary_around isBefore isAfter (by simp [Lexeme.IsOrdinary])) parts.1.symm]
    apply ClosesGroup.next isBefore isAfter
    exact ih closes.2 (fun s inside => occurs s (by simp [inside])) parts.2

theorem not_startsIdentifier {segments others : List Segment} {rest : Text}
    (kept : (segments ++ others).flatMap Segment.kept = utf8 rest)
    (bound : ¬ rest.head?.any isIdentifierChar = true) : ¬ StartsIdentifier (bytesOf segments) := by
  rintro ⟨b, first, isIdentifier⟩
  rw [← head?_kept] at first
  have head : (utf8 rest).head? = some b := by
    rw [← kept, List.flatMap_append, List.head?_append, Option.mem_def.1 first]
    rfl
  cases rest with
  | nil =>
    rw [utf8_nil] at head
    cases head
  | cons c rest =>
    rw [utf8_cons, List.head?_append_of_ne_nil _ String.utf8EncodeChar_ne_nil] at head
    exact bound ((isIdentifierByte_iff (List.mem_of_head? head)).1 isIdentifier)

theorem lineEnd_cut {text : Text} {inner outer : Bytes} {b : UInt8} (isEnd : isLineEnd b)
    (same : utf8 text = inner ++ b :: outer) :
    ∃ before c after, text = before ++ c :: after ∧ inner = utf8 before ∧ outer = utf8 after ∧
      (c = '\n' ∨ c = '\r') := by
  rcases isEnd with rfl | rfl
  · obtain ⟨before, after, rfl, first, second⟩ := utf8_eq_append (a := '\n') (by decide) same
    exact ⟨before, '\n', after, rfl, first, second, .inl rfl⟩
  · obtain ⟨before, after, rfl, first, second⟩ := utf8_eq_append (a := '\r') (by decide) same
    exact ⟨before, '\r', after, rfl, first, second, .inr rfl⟩

theorem masksGroup_of_lineEnd {content : Bytes} {values gap gap' before after : Text} {c : Char}
    (bound : ¬ EndsIdentifier (dash :: dash :: content)) (isValues : foldCase values = "values".toList)
    (isGap : isAllBlank gap = true) (isGap' : isAllBlank gap' = true) (isEnd : c = '\n' ∨ c = '\r')
    (same : values ++ gap ++ '(' :: gap' = before ++ c :: after) {b : UInt8} (ends : isLineEnd b) :
    MasksGroup (.lineComment (dash :: dash :: content ++ utf8 before ++ [b]) :: plain after) := by
  have notOpening : c ≠ '(' := by rcases isEnd with rfl | rfl <;> decide
  have notInValues : c ∉ values := by
    intro member
    have folded : c.toLower ∈ "values".toList := by
      rw [← isValues]
      exact List.mem_map_of_mem member
    rcases isEnd with rfl | rfl <;> exact absurd folded (by decide)
  rcases List.append_eq_append_iff.1 same with ⟨inner, rfl, second⟩ | ⟨outer, first, second⟩
  · cases inner with
    | nil => exact absurd (List.cons.inj second).1.symm notOpening
    | cons d inner =>
      obtain ⟨rfl, -⟩ := List.cons.inj second
      have rest : gap' = inner ++ c :: after := (List.cons.inj second).2
      rw [rest, isAllBlank_append, isAllBlank_cons] at isGap'
      exact .opening bound isValues isGap isGap'.1 ends isGap'.2.2
  · cases outer with
    | nil => exact absurd (List.cons.inj second).1 notOpening
    | cons d outer =>
      obtain ⟨rfl, rfl⟩ := List.cons.inj second
      rcases List.append_eq_append_iff.1 first with ⟨inner, rfl, rfl⟩ | ⟨inner, rfl, second'⟩
      · rw [isAllBlank_append, isAllBlank_cons] at isGap
        exact .keyword bound isValues isGap.1 ends isGap.2.2 isGap'
      · cases inner with
        | nil =>
          rw [List.append_nil] at isValues
          rw [List.nil_append] at second'
          rw [← second', isAllBlank_cons] at isGap
          rw [← List.append_nil before]
          exact .keyword bound isValues rfl ends isGap.2 isGap'
        | cons e inner =>
          obtain ⟨rfl, -⟩ := List.cons.inj second'
          exact absurd (by simp) notInValues

theorem StartsInsert.of_kept {blank insert rest : Text} {segments others : List Segment}
    (isBlank : isAllBlank blank = true) (isInsert : foldCase insert = "insert".toList)
    (bound : ¬ rest.head?.any isIdentifierChar = true)
    (kept : (segments ++ others).flatMap Segment.kept = utf8 rest) :
    StartsInsert (plain (blank ++ insert) ++ segments) :=
  ⟨blank, insert, segments, rfl, isBlank, isInsert, not_startsIdentifier kept bound⟩

theorem not_endsIdentifier {segments : List Segment} {text : Text}
    (kept : segments.flatMap Segment.kept = utf8 text) (bound : ¬ text.reverse.head?.any isIdentifierChar = true) :
    ¬ EndsIdentifier (bytesOf segments) := by
  rw [EndsIdentifier, ← getLast?_kept, kept, ← EndsIdentifier]
  have ends := endsIdentifier_iff text.reverse
  rw [List.reverse_reverse] at ends
  rwa [ends]

theorem segments_of_opensValues {first : Text} (opens : opensValues first = true) {segments : List Segment}
    (occurs : ∀ s ∈ segments, s.OccursInside) (kept : segments.flatMap Segment.kept = utf8 first) :
    ∃ front opening, segments = front ++ opening ∧ StartsInsert front ∧
      (¬ EndsIdentifier (bytesOf front) ∧ OpensGroup opening ∨ MasksGroup opening) := by
  obtain ⟨blank, insert, rest, front, values, gap, gap', rfl, shape, isBlank, isInsert, isValues, isGap, isGap',
    bound, bound'⟩ := opensValues_some opens
  rw [List.append_assoc values] at shape
  obtain ⟨middle, rfl, rfl⟩ := insert_before_values isInsert isValues shape
  rw [← List.append_assoc blank, utf8_append] at kept
  have insertOrdinary := isOrdinary_of_foldCase isInsert (by simp [Lexeme.IsOrdinary])
  have valuesOrdinary := isOrdinary_of_foldCase isValues (by simp [Lexeme.IsOrdinary])
  have ordinary : ∀ b ∈ utf8 (blank ++ insert), ¬ IsSpecial b := by
    apply not_isSpecial_utf8
    exact List.forall_mem_append.2 ⟨isOrdinary_of_isAllBlank isBlank, insertOrdinary⟩
  have ordinary' : ∀ b ∈ utf8 (values ++ gap ++ '(' :: gap'), ¬ IsSpecial b := by
    apply not_isSpecial_utf8
    rw [List.append_assoc]
    exact List.forall_mem_append.2 ⟨valuesOrdinary, isOrdinary_around isGap isGap' (by simp [Lexeme.IsOrdinary])⟩
  obtain ⟨others, rfl, later⟩ := plain_front (fun s member => (occurs s member).occurs) ordinary kept
  have cut := later
  rw [utf8_append, ← List.append_assoc values] at cut
  rcases plain_back (fun s member => occurs s (List.mem_append_right _ member)) ordinary' cut with
    ⟨inner, rfl, between⟩ | ⟨inner, content, x, b, y, shape', ends, rfl, between⟩
  · have front : (plain (blank ++ insert) ++ inner).flatMap Segment.kept = utf8 (blank ++ (insert ++ middle)) := by
      rw [List.flatMap_append, between, plain, kept_map_other, ← utf8_append, List.append_assoc]
    have nonempty : (insert ++ middle).reverse ≠ [] := by
      intro none
      rw [List.reverse_eq_nil_iff, List.append_eq_nil_iff] at none
      rw [none.1] at isInsert
      cases isInsert
    refine ⟨plain (blank ++ insert) ++ inner, _, (List.append_assoc _ _ _).symm,
      .of_kept isBlank isInsert bound later, .inl ⟨not_endsIdentifier front ?_, .mk isValues isGap isGap'⟩⟩
    rwa [List.reverse_append, List.head?_append_of_ne_nil _ nonempty]
  · obtain ⟨before, c, after, cut', rfl, rfl, isEnd⟩ := lineEnd_cut ends shape'
    have nonempty : middle.reverse ≠ [] := by
      intro none
      rw [List.reverse_eq_nil_iff.1 none, utf8_nil] at between
      exact absurd between (by simp)
    have free : ¬ EndsIdentifier (dash :: dash :: content) := by
      have boundary := endsIdentifier_iff middle.reverse
      rw [List.reverse_append, List.head?_append_of_ne_nil _ nonempty, ← boundary, List.reverse_reverse, ← between,
        EndsIdentifier, List.getLast?_append_of_ne_nil _ (by simp)] at bound'
      exact bound'
    exact ⟨plain (blank ++ insert) ++ inner, _, (List.append_assoc _ _ _).symm,
      .of_kept isBlank isInsert bound later, .inr (masksGroup_of_lineEnd free isValues isGap isGap' isEnd cut' ends)⟩

theorem Segmentation.occurs {standard : Bool} {before rest : Bytes} {segments : List Segment}
    (h : Segmentation standard before segments rest) : ∀ s ∈ segments, s.Occurs := by
  induction h with
  | nil => simp
  | cons reads _ ih => exact List.forall_mem_cons.2 ⟨⟨_, _, _, reads⟩, ih⟩

theorem Segmentation.occursInside {standard : Bool} {before rest : Bytes} {segments : List Segment}
    (h : Segmentation standard before segments rest) (inside : rest ≠ []) : ∀ s ∈ segments, s.OccursInside := by
  induction h with
  | nil => simp
  | cons reads _ ih => exact List.forall_mem_cons.2 ⟨⟨_, _, _, List.append_ne_nil_of_right_ne_nil _ inside, reads⟩, ih inside⟩

/-! ## No insert is both -/

theorem eq_of_toLower {c : Char} (isV : c.toLower = 'v') : c = 'v' ∨ c = 'V' := by
  unfold Char.toLower at isV
  split at isV
  · refine .inr (Char.ext ?_)
    have value : c.val + 32 = 118 := congrArg Char.val isV
    rw [← UInt32.add_sub_cancel c.val 32, value]
    rfl
  · exact .inl isV

theorem MasksGroup.tail {opening : List Segment} (masks : MasksGroup opening) :
    ∃ comment blank, opening = .lineComment comment :: plain blank ∧ ∀ c ∈ blank, isBlank c = true ∨ c = '(' := by
  cases masks with
  | @keyword content values gap gap' gap'' b _ _ _ _ isGap' isGap'' =>
    refine ⟨_, gap' ++ '(' :: gap'', rfl, ?_⟩
    intro c member
    rcases List.mem_append.1 member with inside | inside
    · exact .inl (List.all_eq_true.1 isGap' c inside)
    · exact (List.mem_cons.1 inside).symm.imp_left (List.all_eq_true.1 isGap'' c)
  | @opening content values gap gap' gap'' b _ _ _ _ _ isGap'' =>
    exact ⟨_, gap'', rfl, fun c member => .inl (List.all_eq_true.1 isGap'' c member)⟩

theorem mem_of_plain_suffix {front : List Segment} {word text : Text} (same : plain text = front ++ plain word)
    {c : Char} (small : c.toNat < 0x80) (member : c ∈ word) : c ∈ text := by
  have inside : .other (ascii c) ∈ plain text := by
    rw [same]
    exact List.mem_append_right _ (List.mem_map_of_mem ((mem_utf8 small).2 member))
  obtain ⟨b, inside, isC⟩ := List.mem_map.1 inside
  cases isC
  exact (mem_utf8 small).1 inside

theorem not_mem_plain {segment : Segment} (other : ∀ b, segment ≠ .other b) (text : Text) : segment ∉ plain text := by
  intro member
  obtain ⟨b, -, same⟩ := List.mem_map.1 member
  exact other b same.symm

theorem eq_of_mark {front front' later later' : List Segment} (absent : .mark ∉ front) (absent' : .mark ∉ front')
    (same : front ++ .mark :: later = front' ++ .mark :: later') : front = front' := by
  rcases List.append_eq_append_iff.1 same with ⟨x, rfl, second⟩ | ⟨x, rfl, second⟩
  · cases x with
    | nil => rw [List.append_nil]
    | cons s x =>
      rw [← (List.cons.inj second).1] at absent'
      exact absurd (by simp) absent'
  · cases x with
    | nil => rw [List.append_nil]
    | cons s x =>
      rw [← (List.cons.inj second).1] at absent
      exact absurd (by simp) absent

theorem Masked.not_singleRow {segments : List Segment} (masked : Masked segments) : ¬ SingleRow segments := by
  rintro ⟨front, opening, closing, same, absent, -, -, opens, -⟩
  obtain ⟨front', opening', closing', rfl, absent', -, masks, -⟩ := masked
  obtain ⟨comment, blank, rfl, isBlank⟩ := masks.tail
  obtain ⟨isValues, isGap, isGap'⟩ := opens
  rename_i values gap gap'
  have noMark : .mark ∉ front ++ plain (values ++ gap ++ '(' :: gap') := by
    rw [List.mem_append, not_or]
    exact ⟨absent, not_mem_plain (by simp) _⟩
  have noMark' : .mark ∉ front' ++ .lineComment comment :: plain blank := by
    rw [List.mem_append, List.mem_cons, not_or, not_or]
    exact ⟨absent', by simp, not_mem_plain (by simp) _⟩
  have noComment : .lineComment comment ∉ plain (values ++ gap ++ '(' :: gap') := not_mem_plain (by simp) _
  rcases List.append_eq_append_iff.1 (eq_of_mark noMark' noMark same) with ⟨x, -, second⟩ | ⟨x, -, second⟩
  · cases x with
    | nil =>
      rw [← List.nil_append (plain _), ← second] at noComment
      exact noComment List.mem_cons_self
    | cons s x =>
      -- The blanks behind the comment have no letter, so they do not end with the keyword.
      obtain ⟨v, letters, rfl, isV⟩ : ∃ v letters, values = v :: letters ∧ v.toLower = 'v' := by
        cases values with
        | nil => cases isValues
        | cons v letters => exact ⟨v, letters, rfl, (List.cons.inj isValues).1⟩
      have inside (small : v.toNat < 0x80) : v ∈ blank :=
        mem_of_plain_suffix (List.cons.inj second).2 small (by simp)
      rcases eq_of_toLower isV with rfl | rfl
      · exact absurd (isBlank _ (inside (by decide))) (by decide)
      · exact absurd (isBlank _ (inside (by decide))) (by decide)
  · exact noComment (second ▸ List.mem_append_right _ List.mem_cons_self)

end Grammar

open Grammar

/-- The keywords and the only group of an insert that can grow stand on their own, unless a line comment ends in
`VALUES` or in `VALUES (`: the line break that ends the comment is then taken for a blank. -/
theorem growable_segments {standard : Bool} {text : Text} {fragments : Fragments}
    (divided : split standard text = .ok fragments) (growable : fragments.isGrowable = true) :
    ∃ segments, IsSegmentation standard (utf8 text) segments ∧ (SingleRow segments ∨ Masked segments) := by
  obtain ⟨segments, isSegmentation, parts⟩ := split_ok divided
  refine ⟨segments, isSegmentation, ?_⟩
  have marks := Fragments.later_ne_nil_of_isGrowable growable
  rw [Fragments.isGrowable, Bool.and_eq_true] at growable
  have several : .mark ∈ segments := by
    apply mark_mem_of_length
    rw [← parts]
    simpa [Fragments.parts, List.length_pos_iff] using marks
  obtain ⟨before, closing, rfl, absent, first⟩ := fragmentsOf_several several
  rw [first, Fragments.parts, List.map_cons, List.cons.injEq] at parts
  obtain ⟨front', behind⟩ := isSegmentation.1.of_append
  have inside := front'.occursInside (by simp [Segment.bytes])
  obtain ⟨front, opening, rfl, starts, opens⟩ := segments_of_opensValues growable.1 inside parts.1.symm
  have closes := closesGroup_of_closesValues growable.2
    (fun s member => behind.occurs s (List.mem_cons_of_mem _ member)) parts.2
  have absent' : .mark ∉ front := fun member => absent (List.mem_append_left _ member)
  rcases opens with ⟨bound, opens⟩ | masks
  · exact .inl ⟨front, opening, closing, rfl, absent', starts, bound, opens, closes⟩
  · exact .inr ⟨front, opening, closing, rfl, absent', starts, masks, closes⟩

theorem growable_segments_pair :
    split true "INSERT INTO t VALUES (?, ?)".toList =
        .ok ⟨"INSERT INTO t VALUES (".toList, [", ".toList, ")".toList]⟩ ∧
      (Fragments.mk "INSERT INTO t VALUES (".toList [", ".toList, ")".toList]).isGrowable = true ∧
      ∃ segments, IsSegmentation true (utf8 "INSERT INTO t VALUES (?, ?)".toList) segments ∧
        (SingleRow segments ∨ Masked segments) := by
  have divided : split true "INSERT INTO t VALUES (?, ?)".toList =
      .ok ⟨"INSERT INTO t VALUES (".toList, [", ".toList, ")".toList]⟩ := by cbv
  have growable : (Fragments.mk "INSERT INTO t VALUES (".toList
      [", ".toList, ")".toList]).isGrowable = true := by decide
  exact ⟨divided, growable, growable_segments divided growable⟩

def maskedInsert : Text := "INSERT INTO t SELECT abs( -- VALUES (\n?)".toList

def maskedSegments : List Segment :=
  plain "INSERT INTO t SELECT abs( ".toList ++
    .lineComment (dash :: dash :: utf8 " VALUES (".toList ++ [0x0A]) :: .mark :: plain [')']

theorem isSegmentation_maskedSegments : IsSegmentation true (utf8 maskedInsert) maskedSegments := by
  have front : ∀ c ∈ "INSERT INTO t SELECT abs( ".toList, Lexeme.IsOrdinary c := by simp [Lexeme.IsOrdinary]
  have closing : ∀ c ∈ [')'], Lexeme.IsOrdinary c := by simp [Lexeme.IsOrdinary]
  have content : ∀ b ∈ utf8 " VALUES (".toList, ¬ isLineEnd b := isLineEnd_utf8 (by simp)
  constructor
  · apply Segmentation.append (segmentation_other (not_isSpecial_utf8 front))
    refine .cons (.lineComment content (.inr ⟨0x0A, .inl rfl, rfl⟩)) (.cons (.mark ?_) ?_)
    · decide
    · exact segmentation_other (not_isSpecial_utf8 closing)
  · decide

theorem masked_maskedSegments : Masked maskedSegments := by
  refine ⟨plain "INSERT INTO t SELECT abs( ".toList,
    [.lineComment (dash :: dash :: utf8 " VALUES (".toList ++ [0x0A])], plain [')'], by simp [maskedSegments],
    not_mem_plain (by simp) _, ?_, ?_, ?_⟩
  · refine ⟨[], "INSERT".toList, plain " INTO t SELECT abs( ".toList, by decide, rfl, by decide, ?_⟩
    have kept : (plain " INTO t SELECT abs( ".toList ++ []).flatMap Segment.kept =
        utf8 " INTO t SELECT abs( ".toList := by
      rw [List.append_nil, plain, kept_map_other]
    exact not_startsIdentifier kept (by decide)
  · change MasksGroup
      (.lineComment (dash :: dash :: [0x20] ++ utf8 ("VALUES".toList ++ [' '] ++ '(' :: []) ++ [0x0A]) :: plain [])
    exact .opening (by simp [EndsIdentifier, isIdentifierByte, isDigitByte]) (by decide) rfl rfl (.inl rfl) rfl
  · change ClosesGroup (plain ([] ++ ')' :: []))
    exact .last rfl rfl

theorem growable_segments_masked : ∃ fragments, split true maskedInsert = .ok fragments ∧
    fragments.isGrowable = true ∧
    (fragments.grow 2).native = "INSERT INTO t SELECT abs( -- VALUES (\n$1),($2)".toList ∧
    ∀ segments, IsSegmentation true (utf8 maskedInsert) segments → ¬ SingleRow segments := by
  refine ⟨⟨"INSERT INTO t SELECT abs( -- VALUES (\n".toList, [[')']]⟩, by cbv, by decide, by cbv, ?_⟩
  intro segments isSegmentation
  rw [isSegmentation.unique isSegmentation_maskedSegments]
  exact masked_maskedSegments.not_singleRow

end ExtendedQuery.Sql
