import ExtendedQuery.Proofs.Text.Encoded
import ExtendedQuery.Sql.Fragments
import Mathlib.Data.List.Infix

/-!
# The lexical grammar of SQL text

The grammar is stated on the bytes of the UTF-8 form, by what a segment looks like and what may stand
around it, without saying how it is found:

* `LiteralTail`, `CommentTail`: what follows the opening of a literal or of a nested comment, through
  its own end;
* `Opens`, `Closes`: which construct an opening stands for after the bytes before it, and which bytes
  close it before the bytes after it;
* `Reads`, `Segmentation`: the segments of a text from left to right;
* `Unclosed`: a construct that is opened here and closed nowhere.

A text has one segmentation at most, up to its end or up to a construct that does not close
(`Segmentation.unique`).
-/

namespace ExtendedQuery.Sql.Grammar

open Text (utf8 isIdentifierByte isDigitByte)

@[simp] abbrev quote : UInt8 := 0x27
@[simp] abbrev doubleQuote : UInt8 := 0x22
@[simp] abbrev backslash : UInt8 := 0x5C
@[simp] abbrev dash : UInt8 := 0x2D
@[simp] abbrev slash : UInt8 := 0x2F
@[simp] abbrev star : UInt8 := 0x2A
@[simp] abbrev dollar : UInt8 := 0x24
@[simp] abbrev questionMark : UInt8 := 0x3F

def isLineEnd (b : UInt8) : Prop := b = 0x0A ∨ b = 0x0D

/-! ## Constructs -/

inductive LiteralTail (escapes : Bool) : Bytes → Prop
  | close : LiteralTail escapes [quote]
  | doubled {tail : Bytes} : LiteralTail escapes tail → LiteralTail escapes (quote :: quote :: tail)
  | escaped {b : UInt8} {tail : Bytes} : escapes = true → LiteralTail escapes tail →
      LiteralTail escapes (backslash :: b :: tail)
  | other {b : UInt8} {tail : Bytes} : b ≠ quote → (b = backslash → escapes = false) →
      LiteralTail escapes tail → LiteralTail escapes (b :: tail)

inductive CommentTail : Bytes → Prop
  | close : CommentTail [star, slash]
  | nested {inner tail : Bytes} : CommentTail inner → CommentTail tail →
      CommentTail (slash :: star :: (inner ++ tail))
  | other {b : UInt8} {tail : Bytes} : ¬ [slash, star] <+: b :: tail → ¬ [star, slash] <+: b :: tail →
      CommentTail tail → CommentTail (b :: tail)

def EndsIdentifier (before : Bytes) : Prop := ∃ b ∈ before.getLast?, isIdentifierByte b

/-- The mark `E` of a literal with escapes stands last, and is not the end of an identifier. -/
def EndsEscapeMark (before : Bytes) : Prop :=
  ∃ front e, before = front ++ [e] ∧ (e = 0x65 ∨ e = 0x45) ∧ ¬ EndsIdentifier front

/-- The name between the dollar signs of a tag: identifier bytes without `$`, no digit first. -/
def IsTagName (name : Bytes) : Prop :=
  (∀ b ∈ name, isIdentifierByte b ∧ b ≠ dollar) ∧ ∀ b ∈ name.head?, ¬ isDigitByte b

inductive Opens (before : Bytes) : Construct → (opening : Bytes) → Prop
  | literal : Opens before .literal [quote]
  | identifier : Opens before .identifier [doubleQuote]
  | comment : Opens before .comment [slash, star]
  | dollarQuote {name : Text} : ¬ EndsIdentifier before → IsTagName (utf8 name) →
      Opens before (.dollarQuote ('$' :: name ++ ['$'])) (dollar :: utf8 name ++ [dollar])

/-- The bytes `tail` close a construct that was opened behind `before`, and `later` follows them. A dollar
quote is closed by the first later occurrence of its tag. -/
inductive Closes (standard : Bool) (before later : Bytes) : Construct → (tail : Bytes) → Prop
  | literal {escapes : Bool} {tail : Bytes} :
      (escapes = true ↔ standard = false ∨ EndsEscapeMark before) → LiteralTail escapes tail →
      later.head? ≠ some quote → Closes standard before later .literal tail
  | identifier {name : Bytes} : doubleQuote ∉ name →
      Closes standard before later .identifier (name ++ [doubleQuote])
  | comment {tail : Bytes} : CommentTail tail → Closes standard before later .comment tail
  | dollarQuote {tag : Text} {content : Bytes} :
      (∀ x y, content ++ utf8 tag ++ later = x ++ utf8 tag ++ y → content.length ≤ x.length) →
      Closes standard before later (.dollarQuote tag) (content ++ utf8 tag)

/-! ## Segments -/

inductive Segment where
  | enclosed (construct : Construct) (bytes : Bytes)
  | lineComment (bytes : Bytes)
  | escapedMark
  | mark
  | other (b : UInt8)
  deriving DecidableEq, Repr

namespace Segment

def bytes : Segment → Bytes
  | .enclosed _ bytes | .lineComment bytes => bytes
  | .escapedMark => [questionMark, questionMark]
  | .mark => [questionMark]
  | .other b => [b]

def kept : Segment → Bytes
  | .escapedMark => [questionMark]
  | segment => segment.bytes

end Segment

abbrev bytesOf (segments : List Segment) : Bytes := segments.flatMap Segment.bytes

inductive Reads (standard : Bool) (before later : Bytes) : Segment → Prop
  | enclosed {construct : Construct} {opening tail : Bytes} : Opens before construct opening →
      Closes standard before later construct tail →
      Reads standard before later (.enclosed construct (opening ++ tail))
  | lineComment {content ending : Bytes} : (∀ b ∈ content, ¬ isLineEnd b) →
      (ending = [] ∧ later = [] ∨ ∃ b, isLineEnd b ∧ ending = [b]) →
      Reads standard before later (.lineComment (dash :: dash :: content ++ ending))
  | escapedMark : Reads standard before later .escapedMark
  | mark : later.head? ≠ some questionMark → Reads standard before later .mark
  | other {b : UInt8} : b ≠ questionMark → ¬ [dash, dash] <+: b :: later →
      (∀ construct opening, Opens before construct opening → ¬ opening <+: b :: later) →
      Reads standard before later (.other b)

inductive Segmentation (standard : Bool) : (before : Bytes) → List Segment → (rest : Bytes) → Prop
  | nil {before rest : Bytes} : Segmentation standard before [] rest
  | cons {before rest : Bytes} {segment : Segment} {segments : List Segment} :
      Reads standard before (bytesOf segments ++ rest) segment →
      Segmentation standard (before ++ segment.bytes) segments rest →
      Segmentation standard before (segment :: segments) rest

def Unclosed (standard : Bool) (before : Bytes) (construct : Construct) (rest : Bytes) : Prop :=
  ∃ opening tail, Opens before construct opening ∧ rest = opening ++ tail ∧
    ∀ closing later, tail = closing ++ later → ¬ Closes standard before later construct closing

def IsSegmentation (standard : Bool) (text : Bytes) (segments : List Segment) : Prop :=
  Segmentation standard [] segments [] ∧ bytesOf segments = text

/-- The segments of the text up to a construct that does not close, which starts at the offset. -/
def BreaksOff (standard : Bool) (text : Bytes) (segments : List Segment) (e : Unterminated) : Prop :=
  ∃ rest, Segmentation standard [] segments rest ∧ text = bytesOf segments ++ rest ∧
    Unclosed standard (bytesOf segments) e.construct rest ∧ e.offset = (bytesOf segments).length

def fragmentsOf (segments : List Segment) : List Bytes :=
  (segments.splitOn .mark).map (·.flatMap Segment.kept)

/-! ## One reading at most -/

theorem eq_of_stop {p : UInt8 → Prop} {a b x y : Bytes} (ha : ∀ c ∈ a, ¬ p c) (hb : ∀ c ∈ b, ¬ p c)
    (hx : ∀ c ∈ x.head?, p c) (hy : ∀ c ∈ y.head?, p c) (same : a ++ x = b ++ y) : a = b := by
  induction a generalizing b with
  | nil =>
    cases b with
    | nil => rfl
    | cons c b => exact absurd (hx c (by simp at same; simp [same])) (hb c (by simp))
  | cons d a ih =>
    cases b with
    | nil => exact absurd (hy d (by simp at same; simp [← same])) (ha d (by simp))
    | cons c b =>
      simp only [List.cons_append, List.cons.injEq] at same
      rw [same.1, ih (fun c h => ha c (by simp [h])) (fun c h => hb c (by simp [h])) same.2]

theorem LiteralTail.unique {escapes : Bool} {a b x y : Bytes} (ha : LiteralTail escapes a)
    (hb : LiteralTail escapes b) (hx : x.head? ≠ some quote) (hy : y.head? ≠ some quote)
    (same : a ++ x = b ++ y) : a = b := by
  induction ha generalizing b with
  | close =>
    cases hb with
    | close => rfl
    | doubled => simp at same; simp [same] at hx
    | escaped => simp at same
    | other plain => simp at same; exact absurd same.1.symm plain
  | doubled _ ih =>
    cases hb with
    | close => simp at same; simp [← same] at hy
    | doubled later => simp at same; rw [ih later same]
    | escaped => simp at same
    | other plain => simp at same; exact absurd same.1.symm plain
  | escaped on _ ih =>
    cases hb with
    | close => simp at same
    | doubled => simp at same
    | escaped _ later => simp at same; rw [same.1, ih later same.2]
    | other _ off => simp at same; simp [off same.1.symm] at on
  | other plain off _ ih =>
    cases hb with
    | close => simp at same; exact absurd same.1 plain
    | doubled => simp at same; exact absurd same.1 plain
    | escaped on => simp at same; simp [off same.1] at on
    | other _ _ later => simp at same; rw [same.1, ih later same.2]

theorem CommentTail.ne_nil {tail : Bytes} (h : CommentTail tail) : tail ≠ [] := by
  cases h <;> simp

theorem CommentTail.pair_isPrefix {b c d : UInt8} {tail x : Bytes} (h : CommentTail tail) :
    [c, d] <+: b :: (tail ++ x) ↔ [c, d] <+: b :: tail := by
  cases tail with
  | nil => exact absurd rfl h.ne_nil
  | cons e tail => simp [List.cons_prefix_cons]

theorem CommentTail.unique {a b x y : Bytes} (ha : CommentTail a) (hb : CommentTail b)
    (same : a ++ x = b ++ y) : a = b := by
  induction ha generalizing b x y with
  | close =>
    cases hb with
    | close => rfl
    | nested => simp at same
    | @other c tail open' shut later =>
      simp only [List.cons_append, List.cons.injEq] at same
      obtain ⟨rfl, rest⟩ := same
      rw [← later.pair_isPrefix (x := y), ← rest] at shut
      simp at shut
  | @nested inner tail _ _ ihInner ihTail =>
    cases hb with
    | close => simp at same
    | @nested inner' tail' hInner' hTail' =>
      simp only [List.cons_append, List.append_assoc, List.cons.injEq, true_and] at same
      have first := ihInner hInner' same
      subst first
      rw [ihTail hTail' (List.append_cancel_left same)]
    | @other c tail' open' shut later =>
      simp only [List.cons_append, List.cons.injEq] at same
      obtain ⟨rfl, rest⟩ := same
      rw [← later.pair_isPrefix (x := y), ← rest] at open'
      simp at open'
  | @other c tail open' shut h ih =>
    cases hb with
    | close =>
      simp only [List.cons_append, List.cons.injEq] at same
      obtain ⟨rfl, rest⟩ := same
      rw [← h.pair_isPrefix (x := x), rest] at shut
      simp at shut
    | nested =>
      simp only [List.cons_append, List.cons.injEq] at same
      obtain ⟨rfl, rest⟩ := same
      rw [← h.pair_isPrefix (x := x), rest] at open'
      simp at open'
    | other _ _ later =>
      simp only [List.cons_append, List.cons.injEq] at same
      obtain ⟨rfl, rest⟩ := same
      rw [ih later rest]

theorem Opens.ne_nil {before opening : Bytes} {construct : Construct}
    (h : Opens before construct opening) : opening ≠ [] := by
  cases h <;> simp

theorem Opens.head_ne {before opening : Bytes} {construct : Construct}
    (h : Opens before construct opening) :
    opening.head? ≠ some dash ∧ opening.head? ≠ some questionMark := by
  cases h <;> simp

theorem Opens.unique {before text o o' : Bytes} {c c' : Construct} (h : Opens before c o)
    (h' : Opens before c' o') (starts : o <+: text) (starts' : o' <+: text) : c = c' ∧ o = o' := by
  obtain ⟨x, rfl⟩ := starts
  obtain ⟨y, same⟩ := starts'
  cases h with
  | dollarQuote _ tag =>
    cases h' with
    | @dollarQuote name' _ tag' =>
      simp only [List.cons_append, List.append_assoc, List.cons.injEq, true_and, List.nil_append] at same
      have names := eq_of_stop (p := (· = dollar)) (fun b h => (tag'.1 b h).2)
        (fun b h => (tag.1 b h).2) (by simp) (by simp) same
      rw [Text.utf8_injective names]
      exact ⟨rfl, rfl⟩
    | _ => simp at same
  | _ =>
    cases h' <;> simp at same
    exact ⟨rfl, rfl⟩

theorem Closes.unique {standard : Bool} {before x y a b : Bytes} {construct : Construct}
    (ha : Closes standard before x construct a) (hb : Closes standard before y construct b)
    (same : a ++ x = b ++ y) : a = b := by
  cases ha with
  | @literal escapes _ active ha hx =>
    cases hb with
    | @literal escapes' _ active' hb hy =>
      have : escapes = escapes' := Bool.eq_iff_iff.2 (active.trans active'.symm)
      subst this
      exact ha.unique hb hx hy same
  | identifier ha =>
    cases hb with
    | identifier hb =>
      simp only [List.append_assoc, List.cons_append, List.nil_append] at same
      rw [eq_of_stop (p := (· = doubleQuote)) (fun b h e => ha (e ▸ h)) (fun b h e => hb (e ▸ h))
        (by simp) (by simp) same]
  | comment ha =>
    cases hb with
    | comment hb => exact ha.unique hb same
  | dollarQuote ha =>
    cases hb with
    | dollarQuote hb =>
      have lengths := Nat.le_antisymm (ha _ _ same) (hb _ _ same.symm)
      simp only [List.append_assoc] at same
      rw [(List.append_inj same lengths).1]

theorem Reads.bytes_ne_nil {standard : Bool} {before later : Bytes} {segment : Segment}
    (h : Reads standard before later segment) : segment.bytes ≠ [] := by
  cases h with
  | enclosed opens => simp [Segment.bytes, opens.ne_nil]
  | _ => simp [Segment.bytes]

theorem Reads.enclosed_of_opens {standard : Bool} {before later later' opening tail : Bytes}
    {construct : Construct} {u : Segment} (hu : Reads standard before later' u)
    (opens : Opens before construct opening) (same : (opening ++ tail) ++ later = u.bytes ++ later') :
    ∃ construct' opening' tail', u = .enclosed construct' (opening' ++ tail') ∧
      Opens before construct' opening' ∧ Closes standard before later' construct' tail' := by
  have head : (u.bytes ++ later').head? = opening.head? := by
    rw [← same, List.append_assoc, List.head?_append_of_ne_nil _ opens.ne_nil]
  cases hu with
  | enclosed opens' closes' => exact ⟨_, _, _, rfl, opens', closes'⟩
  | lineComment => exact absurd head.symm opens.head_ne.1
  | escapedMark => exact absurd head.symm opens.head_ne.2
  | mark => exact absurd head.symm opens.head_ne.2
  | other _ _ free => exact absurd ⟨_, by rw [← List.append_assoc]; exact same⟩ (free _ _ opens)

theorem lineComment_unique {content content' ending ending' later later' : Bytes}
    (inner : ∀ b ∈ content, ¬ isLineEnd b) (inner' : ∀ b ∈ content', ¬ isLineEnd b)
    (ends : ending = [] ∧ later = [] ∨ ∃ b, isLineEnd b ∧ ending = [b])
    (ends' : ending' = [] ∧ later' = [] ∨ ∃ b, isLineEnd b ∧ ending' = [b])
    (same : content ++ (ending ++ later) = content' ++ (ending' ++ later')) :
    content = content' ∧ ending = ending' := by
  have stop {ending later : Bytes} (h : ending = [] ∧ later = [] ∨ ∃ b, isLineEnd b ∧ ending = [b]) :
      ∀ b ∈ (ending ++ later).head?, isLineEnd b := by
    rcases h with ⟨rfl, rfl⟩ | ⟨b, isEnd, rfl⟩ <;> simp [*]
  have contents := eq_of_stop inner inner' (stop ends) (stop ends') same
  subst contents
  have rests := List.append_cancel_left same
  rcases ends with ⟨rfl, rfl⟩ | ⟨b, _, rfl⟩ <;> rcases ends' with ⟨rfl, rfl⟩ | ⟨c, _, rfl⟩ <;>
    simp at rests
  · exact ⟨rfl, rfl⟩
  · exact ⟨rfl, by rw [rests.1]⟩

theorem Reads.unique {standard : Bool} {before x y : Bytes} {s t : Segment}
    (hs : Reads standard before x s) (ht : Reads standard before y t)
    (same : s.bytes ++ x = t.bytes ++ y) : s = t := by
  have whole := hs
  cases hs with
  | @enclosed construct opening tail opens closes =>
    obtain ⟨construct', opening', tail', rfl, opens', closes'⟩ := ht.enclosed_of_opens opens same
    simp only [Segment.bytes, List.append_assoc] at same
    obtain ⟨rfl, rfl⟩ := opens.unique opens' ⟨_, rfl⟩ ⟨_, same.symm⟩
    rw [closes.unique closes' (List.append_cancel_left same)]
  | @lineComment content ending inner ends =>
    cases ht with
    | enclosed opens closes =>
      obtain ⟨_, _, _, impossible, -⟩ := whole.enclosed_of_opens opens same.symm
      cases impossible
    | lineComment inner' ends' =>
      simp only [Segment.bytes, List.append_assoc, List.cons_append, List.cons.injEq, true_and] at same
      obtain ⟨rfl, rfl⟩ := lineComment_unique inner inner' ends ends' same
      rfl
    | escapedMark => simp [Segment.bytes] at same
    | mark => simp [Segment.bytes] at same
    | other _ notComment => exact absurd ⟨_, same⟩ notComment
  | escapedMark =>
    cases ht with
    | enclosed opens closes =>
      obtain ⟨_, _, _, impossible, -⟩ := whole.enclosed_of_opens opens same.symm
      cases impossible
    | lineComment => simp [Segment.bytes] at same
    | escapedMark => rfl
    | mark single => simp [Segment.bytes] at same; simp [← same] at single
    | other plain => simp [Segment.bytes] at same; exact absurd same.1.symm plain
  | mark single =>
    cases ht with
    | enclosed opens closes =>
      obtain ⟨_, _, _, impossible, -⟩ := whole.enclosed_of_opens opens same.symm
      cases impossible
    | lineComment => simp [Segment.bytes] at same
    | escapedMark => simp [Segment.bytes] at same; simp [same] at single
    | mark => rfl
    | other plain => simp [Segment.bytes] at same; exact absurd same.1.symm plain
  | other plain notComment free =>
    cases ht with
    | enclosed opens closes =>
      obtain ⟨_, _, _, impossible, -⟩ := whole.enclosed_of_opens opens same.symm
      cases impossible
    | lineComment => exact absurd ⟨_, same.symm⟩ notComment
    | escapedMark => simp [Segment.bytes] at same; exact absurd same.1 plain
    | mark => simp [Segment.bytes] at same; exact absurd same.1 plain
    | other => simp [Segment.bytes] at same; rw [same.1]

/-! ## Segmentations -/

def Stuck (standard : Bool) (before rest : Bytes) : Prop :=
  rest = [] ∨ ∃ construct, Unclosed standard before construct rest

theorem Reads.not_stuck {standard : Bool} {before later : Bytes} {segment : Segment}
    (h : Reads standard before later segment) : ¬ Stuck standard before (segment.bytes ++ later) := by
  rintro (empty | ⟨construct, opening, tail, opens, same, open'⟩)
  · exact h.bytes_ne_nil (List.append_eq_nil_iff.1 empty).1
  · have head : (segment.bytes ++ later).head? = opening.head? := by
      rw [same, List.head?_append_of_ne_nil _ opens.ne_nil]
    cases h with
    | @enclosed construct' opening' tail' opens' closes' =>
      simp only [Segment.bytes, List.append_assoc] at same
      obtain ⟨rfl, rfl⟩ := opens.unique opens' ⟨tail, same.symm⟩ ⟨_, rfl⟩
      exact open' tail' later (List.append_cancel_left same).symm closes'
    | lineComment => exact opens.head_ne.1 head.symm
    | escapedMark => exact opens.head_ne.2 head.symm
    | mark => exact opens.head_ne.2 head.symm
    | other _ _ free => exact free _ _ opens ⟨tail, same.symm⟩

theorem Segmentation.append {standard : Bool} {before rest : Bytes} {segments others : List Segment}
    (h : Segmentation standard before segments (bytesOf others ++ rest))
    (h' : Segmentation standard (before ++ bytesOf segments) others rest) :
    Segmentation standard before (segments ++ others) rest := by
  induction segments generalizing before with
  | nil => simpa using h'
  | cons segment segments ih =>
    cases h with
    | cons reads h =>
      refine .cons ?_ (ih h ?_)
      · simpa using reads
      · simpa using h'

theorem bytesOf_append (segments others : List Segment) :
    bytesOf (segments ++ others) = bytesOf segments ++ bytesOf others := List.flatMap_append

theorem Segmentation.of_append {standard : Bool} {before rest : Bytes} {segments others : List Segment}
    (h : Segmentation standard before (segments ++ others) rest) :
    Segmentation standard before segments (bytesOf others ++ rest) ∧
      Segmentation standard (before ++ bytesOf segments) others rest := by
  induction segments generalizing before with
  | nil =>
    refine ⟨.nil, ?_⟩
    simpa using h
  | cons segment segments ih =>
    cases h with
    | cons reads h =>
      obtain ⟨first, second⟩ := ih h
      constructor
      · apply Segmentation.cons _ first
        simpa using reads
      · simpa using second

theorem Segmentation.unique {standard : Bool} {before x y : Bytes} {segments others : List Segment}
    (h : Segmentation standard before segments x) (h' : Segmentation standard before others y)
    (stuck : Stuck standard (before ++ bytesOf segments) x)
    (stuck' : Stuck standard (before ++ bytesOf others) y)
    (same : bytesOf segments ++ x = bytesOf others ++ y) : segments = others := by
  induction segments generalizing before others with
  | nil =>
    cases h' with
    | nil => rfl
    | cons reads later =>
      simp only [List.flatMap_nil, List.nil_append, List.append_nil] at same stuck
      rw [same, bytesOf, List.flatMap_cons, List.append_assoc] at stuck
      exact absurd stuck reads.not_stuck
  | cons segment segments ih =>
    cases h with
    | cons reads later =>
      cases h' with
      | nil =>
        simp only [List.flatMap_nil, List.nil_append, List.append_nil] at same stuck'
        rw [← same, bytesOf, List.flatMap_cons, List.append_assoc] at stuck'
        exact absurd stuck' reads.not_stuck
      | cons reads' later' =>
        simp only [List.flatMap_cons, List.append_assoc] at same
        have first := reads.unique reads' same
        subst first
        rw [ih later later' (by simpa using stuck) (by simpa using stuck')
          (List.append_cancel_left same)]

theorem IsSegmentation.unique {standard : Bool} {text : Bytes} {segments others : List Segment}
    (h : IsSegmentation standard text segments) (h' : IsSegmentation standard text others) :
    segments = others :=
  h.1.unique h'.1 (.inl rfl) (.inl rfl) (by rw [h.2, h'.2])

theorem BreaksOff.unique {standard : Bool} {text : Bytes} {segments others : List Segment}
    {e e' : Unterminated} (h : BreaksOff standard text segments e)
    (h' : BreaksOff standard text others e') : segments = others ∧ e = e' := by
  obtain ⟨rest, read, same, unclosed, offset⟩ := h
  obtain ⟨rest', read', same', unclosed', offset'⟩ := h'
  have equal := read.unique read' (.inr ⟨_, unclosed⟩) (.inr ⟨_, unclosed'⟩) (by rw [← same, same'])
  subst equal
  obtain ⟨opening, tail, opens, first, -⟩ := unclosed
  obtain ⟨opening', tail', opens', first', -⟩ := unclosed'
  have rests := List.append_cancel_left (same.symm.trans same')
  have constructs := (opens.unique opens' ⟨tail, first.symm⟩ ⟨tail', by rw [rests, first']⟩).1
  refine ⟨rfl, ?_⟩
  cases e
  cases e'
  simp_all

theorem IsSegmentation.not_breaksOff {standard : Bool} {text : Bytes} {segments others : List Segment}
    {e : Unterminated} (h : IsSegmentation standard text segments) :
    ¬ BreaksOff standard text others e := by
  rintro ⟨rest, read, same, unclosed, -⟩
  have equal := h.1.unique read (.inl rfl) (.inr ⟨_, unclosed⟩) (by rw [h.2, ← same]; simp)
  subst equal
  obtain ⟨opening, tail, opens, first, -⟩ := unclosed
  rw [h.2] at same
  have nothing : opening ++ tail = [] := by
    rw [← first]
    exact List.append_cancel_left (same.symm.trans (List.append_nil text).symm)
  exact opens.ne_nil (List.append_eq_nil_iff.1 nothing).1

/-! ## Fragments -/

@[simp] theorem fragmentsOf_nil : fragmentsOf [] = [[]] := rfl

@[simp] theorem fragmentsOf_mark (segments : List Segment) :
    fragmentsOf (.mark :: segments) = [] :: fragmentsOf segments := by
  simp [fragmentsOf, List.splitOn, List.splitOnP_cons_eq_if_modifyHead]

theorem fragmentsOf_cons {segment : Segment} (other : segment ≠ .mark) (segments : List Segment) :
    fragmentsOf (segment :: segments) = (fragmentsOf segments).modifyHead (segment.kept ++ ·) := by
  have unequal : (segment == Segment.mark) = false := by simp [other]
  simp only [fragmentsOf, List.splitOn, List.splitOnP_cons_eq_if_modifyHead, unequal]
  cases h : List.splitOnP (fun x => x == Segment.mark) segments with
  | nil => exact absurd h (List.splitOnP_ne_nil _ _)
  | cons run runs => simp

theorem fragmentsOf_append {segments : List Segment} (others : .mark ∉ segments)
    (later : List Segment) :
    fragmentsOf (segments ++ later) =
      (fragmentsOf later).modifyHead (segments.flatMap Segment.kept ++ ·) := by
  induction segments with
  | nil =>
    rw [List.nil_append]
    cases fragmentsOf later <;> rfl
  | cons segment segments ih =>
    rw [List.mem_cons, not_or] at others
    rw [List.cons_append, fragmentsOf_cons (Ne.symm others.1), ih others.2]
    cases fragmentsOf later <;> simp

theorem length_fragmentsOf (segments : List Segment) :
    (fragmentsOf segments).length = segments.count .mark + 1 := by
  induction segments with
  | nil => rfl
  | cons segment segments ih =>
    by_cases isMark : segment = .mark
    · subst isMark
      simp [ih]
    · rw [fragmentsOf_cons isMark, List.length_modifyHead, ih, List.count_cons_of_ne isMark]

end ExtendedQuery.Sql.Grammar
