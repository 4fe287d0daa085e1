import ExtendedQuery.Proofs.Parameter.Routing
import ExtendedQuery.Proofs.Sql.Growth
import ExtendedQuery.Proofs.Sql.Scan
import ExtendedQuery.Query

/-!
# Statements of a text

The statements of a text are the pieces between the terminators `;` that stand on their own. What is read of a
piece does not depend on the text around it, since a terminator ends whatever could reach over it
(`Segmentation.cut`): a text is split into its statements by splitting its pieces.
-/

namespace ExtendedQuery

namespace Sql

open Text

namespace Grammar

@[simp] abbrev semicolon : UInt8 := 0x3B

/-! ## A part of a text -/

theorem endsIdentifier_append (front before : Bytes) :
    EndsIdentifier (front ++ semicolon :: before) ↔ EndsIdentifier before := by
  unfold EndsIdentifier
  cases before with
  | nil => simp [isIdentifierByte, isDigitByte]
  | cons b before => simp

theorem endsEscapeMark_append (front before : Bytes) :
    EndsEscapeMark (front ++ semicolon :: before) ↔ EndsEscapeMark before := by
  constructor
  · rintro ⟨inner, e, same, isMark, free⟩
    rcases List.eq_nil_or_concat before with rfl | ⟨before, last, rfl⟩
    · obtain ⟨-, equal⟩ := List.append_inj' same rfl
      cases equal
      rcases isMark with impossible | impossible <;> cases impossible
    · rw [List.concat_eq_append, ← List.cons_append, ← List.append_assoc] at same
      obtain ⟨rfl, equal⟩ := List.append_inj' same rfl
      cases equal
      rw [endsIdentifier_append] at free
      exact ⟨before, e, List.concat_eq_append, isMark, free⟩
  · rintro ⟨inner, e, rfl, isMark, free⟩
    refine ⟨front ++ semicolon :: inner, e, by simp, isMark, ?_⟩
    rwa [endsIdentifier_append]

section

variable {standard : Bool} {before before' later rest suffix : Bytes}

theorem Opens.congr (identifier : EndsIdentifier before ↔ EndsIdentifier before') {construct : Construct}
    {opening : Bytes} (opens : Opens before construct opening) : Opens before' construct opening := by
  cases opens with
  | literal => exact .literal
  | identifier => exact .identifier
  | comment => exact .comment
  | dollarQuote free isName => exact .dollarQuote (mt identifier.2 free) isName

theorem Reads.congr (identifier : EndsIdentifier before ↔ EndsIdentifier before')
    (escape : EndsEscapeMark before ↔ EndsEscapeMark before') {segment : Segment}
    (reads : Reads standard before later segment) : Reads standard before' later segment := by
  cases reads with
  | enclosed opens closes =>
    apply Reads.enclosed (opens.congr identifier)
    cases closes with
    | literal escapes tail next => exact .literal (escapes.trans (or_congr_right escape)) tail next
    | identifier absent => exact .identifier absent
    | comment tail => exact .comment tail
    | dollarQuote first => exact .dollarQuote first
  | lineComment inner ends => exact .lineComment inner ends
  | escapedMark => exact .escapedMark
  | mark single => exact .mark single
  | other notMark notLine free =>
    apply Reads.other notMark notLine
    intro construct opening opens
    exact free construct opening (opens.congr identifier.symm)

theorem head?_ne_of_append {b : UInt8} (next : (later ++ suffix).head? ≠ some b) : later.head? ≠ some b := by
  cases later with
  | nil => simp
  | cons c later => exact next

theorem Closes.of_append {construct : Construct} {tail : Bytes}
    (closes : Closes standard before (later ++ suffix) construct tail) :
    Closes standard before later construct tail := by
  cases closes with
  | literal escapes tail next => exact .literal escapes tail (head?_ne_of_append next)
  | identifier absent => exact .identifier absent
  | comment tail => exact .comment tail
  | @dollarQuote tag content first =>
    apply Closes.dollarQuote
    intro x y same
    apply first x (y ++ suffix)
    rw [← List.append_assoc, same, List.append_assoc]

theorem Reads.of_append {segment : Segment} (reads : Reads standard before (later ++ suffix) segment) :
    Reads standard before later segment := by
  cases reads with
  | enclosed opens closes => exact .enclosed opens closes.of_append
  | lineComment inner ends =>
    apply Reads.lineComment inner
    apply ends.imp_left
    rintro ⟨nothing, none⟩
    exact ⟨nothing, (List.append_eq_nil_iff.1 none).1⟩
  | escapedMark => exact .escapedMark
  | mark single => exact .mark (head?_ne_of_append single)
  | @other b notMark notLine free =>
    have longer {front : Bytes} (starts : front <+: b :: later) : front <+: b :: (later ++ suffix) :=
      starts.trans (List.prefix_append (b :: later) suffix)
    apply Reads.other notMark (mt longer notLine)
    intro construct opening opens starts
    exact free construct opening opens (longer starts)

theorem Segmentation.of_suffix {segments : List Segment}
    (h : Segmentation standard before segments (rest ++ suffix)) : Segmentation standard before segments rest := by
  induction segments generalizing before with
  | nil => exact .nil
  | cons segment segments ih =>
    cases h with
    | cons reads h =>
      rw [← List.append_assoc] at reads
      exact .cons reads.of_append (ih h)

theorem Segmentation.of_semicolon {front : Bytes} {segments : List Segment}
    (h : Segmentation standard (front ++ semicolon :: before) segments rest) :
    Segmentation standard before segments rest := by
  induction segments generalizing before with
  | nil => exact .nil
  | cons segment segments ih =>
    cases h with
    | cons reads h =>
      apply Segmentation.cons
      · exact reads.congr (endsIdentifier_append front before) (endsEscapeMark_append front before)
      · apply ih
        rwa [List.append_assoc, List.cons_append] at h

theorem Segmentation.cut {runs : List (List Segment)}
    (h : Segmentation standard [] ([.other semicolon].intercalate runs) []) {run : List Segment}
    (member : run ∈ runs) : Segmentation standard [] run [] := by
  induction runs with
  | nil => cases member
  | cons first runs ih =>
    cases runs with
    | nil =>
      cases List.mem_singleton.1 member
      rwa [List.intercalate_singleton] at h
    | cons second runs =>
      rw [List.intercalate_cons_cons, List.append_assoc] at h
      obtain ⟨before, after⟩ := h.of_append
      rw [List.append_nil, ← List.nil_append (bytesOf _)] at before
      rcases List.mem_cons.1 member with rfl | inside
      · exact before.of_suffix
      · apply ih _ inside
        cases after with
        | cons _ after =>
          change Segmentation standard (bytesOf first ++ semicolon :: []) _ [] at after
          exact after.of_semicolon

end

/-! ## Marks -/

/-- The mark behind `front` is number `n` of the segments. -/
def IsMark (segments front : List Segment) (n : Nat) : Prop :=
  (∃ back, segments = front ++ .mark :: back) ∧ front.count .mark + 1 = n

theorem exists_isMark {segments : List Segment} {n : Nat} (positive : 1 ≤ n)
    (below : n ≤ segments.count .mark) : ∃ front, IsMark segments front n := by
  induction segments generalizing n with
  | nil =>
    rw [List.count_nil] at below
    omega
  | cons segment segments ih =>
    by_cases isMark : segment = .mark
    · subst isMark
      rw [List.count_cons_self] at below
      by_cases first : n = 1
      · exact ⟨[], ⟨segments, rfl⟩, first.symm⟩
      · obtain ⟨front, ⟨back, rfl⟩, number⟩ := ih (n := n - 1) (by omega) (by omega)
        refine ⟨.mark :: front, ⟨back, rfl⟩, ?_⟩
        rw [List.count_cons_self]
        omega
    · rw [List.count_cons_of_ne isMark] at below
      obtain ⟨front, ⟨back, rfl⟩, number⟩ := ih positive below
      refine ⟨segment :: front, ⟨back, rfl⟩, ?_⟩
      rwa [List.count_cons_of_ne isMark]

theorem IsMark.inside {segments front : List Segment} {n : Nat} (isMark : IsMark segments front n)
    (before after : List Segment) :
    IsMark (before ++ segments ++ after) (before ++ front) (before.count .mark + n) := by
  obtain ⟨⟨back, rfl⟩, rfl⟩ := isMark
  constructor
  · exact ⟨back ++ after, by simp⟩
  · rw [List.count_append, Nat.add_assoc]

end Grammar

/-! ## Pieces -/

namespace Fragments

def glued : List Fragments → Fragments
  | [] => empty
  | [last] => last
  | first :: later => first.append ⟨';' :: (glued later).first, (glued later).later⟩

def nonBlank (all : List Fragments) : List Fragments :=
  match all.filter (!·.isBlank) with
  | [] => [empty]
  | statements => statements

theorem parts_injective {a b : Fragments} (same : a.parts = b.parts) : a = b := by
  obtain ⟨first, later⟩ := a
  obtain ⟨first', later'⟩ := b
  cases same
  rfl

theorem ofLexemes_intercalate (runs : List (List Lexeme)) :
    ofLexemes ([.plain ';'].intercalate runs) = glued (runs.map ofLexemes) := by
  induction runs with
  | nil => rfl
  | cons run runs ih =>
    cases runs with
    | nil => rw [List.intercalate_singleton]; rfl
    | cons second runs =>
      rw [List.intercalate_cons_cons, List.append_assoc, ofLexemes_append, List.singleton_append]
      change (ofLexemes run).append ((ofLexemes _).prepend (.plain ';')) = _
      rw [ih]
      rfl

theorem placeholderCount_glued (all : List Fragments) :
    (glued all).placeholderCount = (all.map placeholderCount).sum := by
  induction all with
  | nil => rfl
  | cons first later ih =>
    cases later with
    | nil => simp [glued]
    | cons second later =>
      rw [glued, placeholderCount_append, List.map_cons, List.sum_cons, ← ih]
      · rfl
      · simp

theorem placeholderCount_of_isBlank {fragments : Fragments} (blank : fragments.isBlank = true) :
    fragments.placeholderCount = 0 := by
  rw [isBlank, Bool.and_eq_true, List.isEmpty_iff] at blank
  rw [placeholderCount, blank.1, List.length_nil]

theorem nonBlank_of_mem {all : List Fragments} {fragments : Fragments} (member : fragments ∈ all)
    (full : fragments.isBlank = false) : nonBlank all = all.filter (!·.isBlank) := by
  have found : fragments ∈ all.filter (!·.isBlank) := List.mem_filter.2 ⟨member, by rw [full]; rfl⟩
  unfold nonBlank
  split
  next none =>
    rw [none] at found
    cases found
  next => rfl

theorem sum_nonBlank (all : List Fragments) :
    ((nonBlank all).map placeholderCount).sum = (all.map placeholderCount).sum := by
  have kept : ((all.filter (!·.isBlank)).map placeholderCount).sum = (all.map placeholderCount).sum := by
    induction all with
    | nil => rfl
    | cons fragments all ih =>
      by_cases blank : fragments.isBlank = true
      · simp [blank, ih, placeholderCount_of_isBlank blank]
      · simp [blank, ih]
  unfold nonBlank
  split
  next none =>
    rw [none] at kept
    exact kept
  next => exact kept

end Fragments

open Grammar

theorem count_of_split {standard : Bool} {text : Text} {fragments : Fragments} {segments : List Segment}
    (done : split standard text = .ok fragments) (isSegmentation : IsSegmentation standard (utf8 text) segments) :
    fragments.placeholderCount = segments.count .mark := by
  obtain ⟨others, found, parts⟩ := isSegmentation.split
  cases done.symm.trans found
  have lengths := congrArg List.length parts
  rw [List.length_map, length_fragmentsOf] at lengths
  exact Nat.succ.inj lengths

/-- A part of a text between terminators, with its segments and its fragments. -/
structure Piece where
  text : Text
  segments : List Segment
  fragments : Fragments

namespace Piece

def IsOf (run : List Lexeme) (p : Piece) : Prop :=
  ∃ parts, List.Forall₂ Keeps run parts ∧ p = ⟨run.flatMap Lexeme.text, parts.flatten, .ofLexemes run⟩

structure IsSplit (standard : Bool) (p : Piece) : Prop where
  split : Sql.split standard p.text = .ok p.fragments
  segmentation : IsSegmentation standard (utf8 p.text) p.segments
  terminator : .other semicolon ∉ p.segments

def isBlank (p : Piece) : Bool := p.fragments.isBlank

def joined (pieces : List Piece) : List Segment := [.other semicolon].intercalate (pieces.map (·.segments))

def leading (pieces : List Piece) : List Segment := pieces.flatMap fun p => p.segments ++ [.other semicolon]

end Piece

theorem Grammar.Keeps.semicolon {segments : List Segment} (keeps : Keeps (.plain ';') segments) :
    segments = [.other semicolon] := by
  cases keeps
  rfl

theorem Grammar.Keeps.not_semicolon {lexeme : Lexeme} {segments : List Segment} (keeps : Keeps lexeme segments)
    (different : lexeme ≠ .plain ';') : .other Grammar.semicolon ∉ segments := by
  cases keeps with
  | plain c =>
    intro member
    obtain ⟨b, inside, same⟩ := List.mem_map.1 member
    cases same
    have equal : ';' = c := (mem_utf8Char (a := ';') (by decide)).1 inside
    exact different (by rw [equal])
  | _ => simp

theorem forall₂_of_append {α β : Type} {R : α → β → Prop} {a b : List α} {c : List β}
    (related : List.Forall₂ R (a ++ b) c) : ∃ x y, c = x ++ y ∧ List.Forall₂ R a x ∧ List.Forall₂ R b y := by
  induction a generalizing c with
  | nil => exact ⟨[], c, rfl, .nil, related⟩
  | cons first a ih =>
    cases related with
    | cons step later =>
      obtain ⟨x, y, rfl, front, back⟩ := ih later
      exact ⟨_ :: x, y, rfl, .cons step front, back⟩

theorem pieces_of_runs {runs : List (List Lexeme)} {parts : List (List Segment)}
    (keeps : List.Forall₂ Keeps ([.plain ';'].intercalate runs) parts) :
    ∃ pieces : List Piece, (∀ p ∈ pieces, ∃ run ∈ runs, Piece.IsOf run p) ∧
      pieces.map (·.fragments) = runs.map Fragments.ofLexemes ∧ parts.flatten = Piece.joined pieces := by
  induction runs generalizing parts with
  | nil =>
    cases keeps
    exact ⟨[], by simp, rfl, rfl⟩
  | cons run runs ih =>
    cases runs with
    | nil =>
      rw [List.intercalate_singleton] at keeps
      refine ⟨[⟨run.flatMap Lexeme.text, parts.flatten, .ofLexemes run⟩], ?_, rfl, ?_⟩
      · intro p member
        cases List.mem_singleton.1 member
        exact ⟨run, by simp, parts, keeps, rfl⟩
      · simp [Piece.joined]
    | cons second runs =>
      rw [List.intercalate_cons_cons, List.append_assoc] at keeps
      obtain ⟨front, rest, rfl, each, after⟩ := forall₂_of_append keeps
      cases after with
      | cons terminator after =>
        cases terminator.semicolon
        obtain ⟨pieces, made, fragments, same⟩ := ih after
        refine ⟨⟨run.flatMap Lexeme.text, front.flatten, .ofLexemes run⟩ :: pieces, ?_, ?_, ?_⟩
        · intro p member
          rcases List.mem_cons.1 member with rfl | inside
          · exact ⟨run, by simp, front, each, rfl⟩
          · obtain ⟨other, among, isOf⟩ := made p inside
            exact ⟨other, List.mem_cons_of_mem _ among, isOf⟩
        · rw [List.map_cons, fragments]
          rfl
        · cases pieces with
          | nil => cases fragments
          | cons p pieces =>
            rw [List.flatten_append, List.flatten_cons, same]
            simp [Piece.joined]

theorem not_mem_of_mem_splitOn {α : Type} [DecidableEq α] {sep : α} {all run : List α}
    (member : run ∈ all.splitOn sep) : sep ∉ run := by
  induction all generalizing run with
  | nil =>
    cases List.mem_singleton.1 member
    simp
  | cons a all ih =>
    rw [List.splitOn, List.splitOnP_cons_eq_if_modifyHead] at member
    split at member
    · rcases List.mem_cons.1 member with rfl | inside
      · simp
      · exact ih inside
    · rename_i different
      obtain ⟨first, others, same⟩ := List.exists_cons_of_ne_nil (List.splitOnP_ne_nil (· == sep) all)
      rw [same, List.modifyHead_cons] at member
      rcases List.mem_cons.1 member with rfl | inside
      · have absent : sep ∉ first := ih (by rw [List.splitOn, same]; simp)
        rw [List.mem_cons, not_or]
        exact ⟨fun equal => different (by rw [equal, beq_self_eq_true]), absent⟩
      · exact ih (by rw [List.splitOn, same]; simp [inside])

namespace Piece

theorem IsOf.bytes {run : List Lexeme} {p : Piece} (isOf : IsOf run p) : bytesOf p.segments = utf8 p.text := by
  obtain ⟨parts, keeps, rfl⟩ := isOf
  dsimp only
  induction keeps with
  | nil => simp
  | cons first _ ih => rw [List.flatten_cons, first.bytesOf_append, ih, List.flatMap_cons, utf8_append]

theorem IsOf.terminator {run : List Lexeme} {p : Piece} (isOf : IsOf run p) (absent : .plain ';' ∉ run) :
    .other semicolon ∉ p.segments := by
  obtain ⟨parts, keeps, rfl⟩ := isOf
  dsimp only
  induction keeps with
  | nil => simp
  | cons first _ ih =>
    rw [List.mem_cons, not_or] at absent
    rw [List.flatten_cons, List.mem_append, not_or]
    exact ⟨first.not_semicolon (Ne.symm absent.1), ih absent.2⟩

theorem IsOf.isSplit {standard : Bool} {run : List Lexeme} {p : Piece} (isOf : IsOf run p)
    (segmentation : Segmentation standard [] p.segments []) (absent : .plain ';' ∉ run) :
    p.IsSplit standard := by
  have whole : IsSegmentation standard (utf8 p.text) p.segments := ⟨segmentation, isOf.bytes⟩
  obtain ⟨fragments, split, parts⟩ := whole.split
  have terminator := isOf.terminator absent
  obtain ⟨parts', keeps, rfl⟩ := isOf
  rw [← parts_ofLexemes keeps] at parts
  have same := Fragments.parts_injective (List.map_injective_iff.2 (fun _ _ => utf8_injective) parts)
  exact ⟨same ▸ split, whole, terminator⟩

theorem bytesOf_joined {pieces : List Piece} (bytes : ∀ p ∈ pieces, bytesOf p.segments = utf8 p.text) :
    bytesOf (joined pieces) = utf8 ([';'].intercalate (pieces.map (·.text))) := by
  unfold joined
  induction pieces with
  | nil => simp
  | cons first later ih =>
    have later' := ih fun p member => bytes p (List.mem_cons_of_mem _ member)
    cases later with
    | nil => simpa using bytes first (by simp)
    | cons second later =>
      rw [List.map_cons, List.map_cons] at later' ⊢
      rw [List.map_cons, List.intercalate_cons_cons, List.map_cons, List.intercalate_cons_cons, bytesOf_append,
        bytesOf_append, later', bytes first (by simp), utf8_append, utf8_append]
      rfl

theorem joined_append (earlier : List Piece) (p : Piece) (later : List Piece) :
    ∃ after, joined (earlier ++ p :: later) = leading earlier ++ p.segments ++ after := by
  unfold joined leading
  induction earlier with
  | nil =>
    cases later with
    | nil => exact ⟨[], by simp⟩
    | cons second later => exact ⟨_, by simp [List.intercalate_cons_cons]; rfl⟩
  | cons first earlier ih =>
    obtain ⟨after, same⟩ := ih
    obtain ⟨second, others, shape⟩ := List.exists_cons_of_ne_nil (List.append_ne_nil_of_right_ne_nil earlier
      (List.cons_ne_nil p later))
    rw [shape] at same
    refine ⟨after, ?_⟩
    rw [List.cons_append, shape, List.map_cons, List.map_cons, List.intercalate_cons_cons, ← List.map_cons, same,
      List.flatMap_cons]
    simp

theorem count_leading {pieces : List Piece}
    (counts : ∀ p ∈ pieces, p.fragments.placeholderCount = p.segments.count .mark) :
    (leading pieces).count .mark = (pieces.map fun p => p.fragments.placeholderCount).sum := by
  induction pieces with
  | nil => rfl
  | cons p pieces ih =>
    unfold leading at ih ⊢
    rw [List.flatMap_cons, List.count_append, List.count_append, List.map_cons, List.sum_cons,
      ih fun q member => counts q (List.mem_cons_of_mem _ member), counts p (by simp)]
    simp

theorem IsSplit.count {standard : Bool} {p : Piece} (isSplit : p.IsSplit standard) :
    p.fragments.placeholderCount = p.segments.count .mark := count_of_split isSplit.split isSplit.segmentation

end Piece

theorem splitStatements_eq_error_iff (standard : Bool) (text : Text) (e : Unterminated) :
    splitStatements standard text = .error e ↔ split standard text = .error e := by
  unfold splitStatements split
  cases Lexeme.scan standard text with
  | error e' => simp [Except.map]
  | ok lexemes => simp [Except.map]

theorem exists_pieces {standard : Bool} {text : Text} {whole : Fragments}
    (done : split standard text = .ok whole) :
    ∃ pieces : List Piece, (∀ p ∈ pieces, p.IsSplit standard) ∧
      text = [';'].intercalate (pieces.map (·.text)) ∧
      IsSegmentation standard (utf8 text) (Piece.joined pieces) ∧
      whole = .glued (pieces.map (·.fragments)) ∧
      splitStatements standard text = .ok (Fragments.nonBlank (pieces.map (·.fragments))) := by
  unfold splitStatements
  unfold split at done
  cases scanned : Lexeme.scan standard text with
  | error e =>
    rw [scanned] at done
    cases done
  | ok lexemes =>
    rw [scanned] at done
    cases done
    obtain ⟨parts, keeps, isSegmentation⟩ := scan_ok scanned
    have runs : [.plain ';'].intercalate (lexemes.splitOn (.plain ';')) = lexemes := List.intercalate_splitOn _
    rw [← runs] at keeps
    obtain ⟨pieces, each, fragments, same⟩ := pieces_of_runs keeps
    rw [same] at isSegmentation
    refine ⟨pieces, ?_, ?_, isSegmentation, ?_, ?_⟩
    · intro p member
      obtain ⟨run, inside, isOf⟩ := each p member
      exact isOf.isSplit (isSegmentation.1.cut (List.mem_map_of_mem member)) (not_mem_of_mem_splitOn inside)
    · apply utf8_injective
      rw [← isSegmentation.2]
      apply Piece.bytesOf_joined
      intro p member
      obtain ⟨run, -, isOf⟩ := each p member
      exact isOf.bytes
    · rw [fragments, ← Fragments.ofLexemes_intercalate, runs]
    · rw [fragments]
      rfl

/-! ## Parameters -/

theorem owner?_of_pieces {pieces : List Piece}
    (counts : ∀ p ∈ pieces, p.fragments.placeholderCount = p.segments.count .mark) {i : Nat} (positive : 1 ≤ i)
    (below : i ≤ (pieces.map fun p => p.fragments.placeholderCount).sum) :
    ∃ earlier p later front j, pieces = earlier ++ p :: later ∧ p.isBlank = false ∧
      IsMark p.segments front j ∧ i = (earlier.map fun p => p.fragments.placeholderCount).sum + j ∧
      CompositeParameters.owner? ((pieces.filter (!·.isBlank)).map fun p => .ofCount p.fragments.placeholderCount) i =
        some ((earlier.filter (!·.isBlank)).length, j) := by
  induction pieces generalizing i with
  | nil => 
    rw [List.map_nil, List.sum_nil] at below
    omega
  | cons p pieces ih =>
    have count := counts p (by simp)
    have ih {i : Nat} := ih (i := i) fun q member => counts q (List.mem_cons_of_mem _ member)
    rw [List.map_cons, List.sum_cons] at below
    cases blank : p.isBlank with
    | true =>
      have none := Fragments.placeholderCount_of_isBlank blank
      obtain ⟨earlier, q, later, front, j, rfl, full, isMark, number, owner⟩ := ih positive (by omega)
      refine ⟨p :: earlier, q, later, front, j, rfl, full, isMark, ?_, ?_⟩
      · rw [List.map_cons, List.sum_cons, none, Nat.zero_add]
        exact number
      · simpa [blank] using owner
    | false =>
      have filtered : (p :: pieces).filter (!·.isBlank) = p :: pieces.filter (!·.isBlank) := by simp [blank]
      have length : (ParameterList.ofCount p.fragments.placeholderCount).length = p.fragments.placeholderCount :=
        List.length_replicate
      rw [filtered, List.map_cons, CompositeParameters.owner?, length]
      by_cases here : i ≤ p.fragments.placeholderCount
      · obtain ⟨front, isMark⟩ := exists_isMark positive (count ▸ here)
        refine ⟨[], p, pieces, front, i, rfl, blank, isMark, by simp, ?_⟩
        rw [if_pos here]
        rfl
      · obtain ⟨earlier, q, later, front, j, rfl, full, isMark, number, owner⟩ :=
          ih (i := i - p.fragments.placeholderCount) (by omega) (by omega)
        refine ⟨p :: earlier, q, later, front, j, rfl, full, isMark, ?_, ?_⟩
        · rw [List.map_cons, List.sum_cons]
          omega
        · rw [if_neg here, owner]
          simp [blank]

end Sql

def Query.fragments : Query → List Sql.Fragments
  | .single s => [s.fragments]
  | .batched s => [s.fragments]
  | .composite statements => statements.map (·.fragments)

/-- The statement that has the parameter, counted from 0, and the number of the parameter in that statement. -/
def Parameters.place? : Parameters → (index : Nat) → Option (Nat × Nat)
  | .single list, index => (list.get index).toOption.map fun _ => (0, index)
  | .composite lists, index => (lists.locate index).toOption

theorem fragments_takeFor (kept : Bool) (all : List Sql.Fragments) (names : NameSupply) :
    (names.takeFor Statement.ofFragments kept all).1.map (·.fragments) = all := by
  induction all generalizing names with
  | nil => rfl
  | cons fragments all ih =>
    unfold NameSupply.takeFor
    dsimp only
    rw [List.map_cons, ih]
    rfl

theorem place?_composite (lists : CompositeParameters) (i : Nat) :
    (Parameters.composite lists).place? (i + 1) = lists.owner? (i + 1) :=
  lists.locate_eq_owner? (Nat.le_add_left 1 i)

theorem place?_composite_zero (lists : CompositeParameters) : (Parameters.composite lists).place? 0 = none := by
  rw [Parameters.place?, CompositeParameters.locate, RoutedLists.locate_outside (by omega)]
  rfl

theorem place?_single (count index : Nat) :
    (Parameters.single (.ofCount count)).place? index = (Parameters.composite [.ofCount count]).place? index := by
  cases index with
  | zero => exact (place?_composite_zero _).symm
  | succ i =>
    have length : (ParameterList.ofCount count).length = count := List.length_replicate
    rw [place?_composite]
    unfold Parameters.place? ParameterList.get
    simp only [CompositeParameters.owner?, length]
    by_cases inside : i + 1 ≤ count
    · have found : (ParameterList.ofCount count)[i]? = some .unbound :=
        List.getElem?_replicate.trans (if_pos inside)
      rw [if_pos inside, found]
      rfl
    · have nothing : (ParameterList.ofCount count)[i]? = none := List.getElem?_replicate.trans (if_neg inside)
      rw [if_neg inside, nothing]
      rfl

theorem place?_ne_none_iff (lists : CompositeParameters) (index : Nat) :
    (Parameters.composite lists).place? index ≠ none ↔ 1 ≤ index ∧ index ≤ (lists.map List.length).sum := by
  have owned {index : Nat} (positive : 1 ≤ index) :
      CompositeParameters.owner? lists index ≠ none ↔ index ≤ (lists.map List.length).sum := by
    induction lists generalizing index with
    | nil =>
      rw [List.map_nil, List.sum_nil, CompositeParameters.owner?]
      exact ⟨fun absent => absurd rfl absent, by omega⟩
    | cons list lists ih =>
      rw [CompositeParameters.owner?, List.map_cons, List.sum_cons]
      by_cases here : index ≤ list.length
      · rw [if_pos here]
        exact ⟨fun _ => Nat.le_add_right_of_le here, fun _ => Option.some_ne_none _⟩
      · rw [if_neg here, Ne, Option.map_eq_none_iff, ← Ne, ih (by omega)]
        omega
  cases index with
  | zero => simp [place?_composite_zero]
  | succ i =>
    rw [place?_composite, owned (Nat.le_add_left 1 i)]
    omega

theorem Query.prepare_fragments {text : Text} {kept : Bool} {caps : Capabilities} {config : Config}
    {names names' : NameSupply} {query : Query}
    (prepared : prepare text kept caps config names = .ok (query, names')) :
    Sql.splitStatements caps.standardConformingStrings text = .ok query.fragments ∧
      ∀ index, query.createParameters.place? index =
        (Parameters.composite (query.fragments.map fun f => .ofCount f.placeholderCount)).place? index := by
  unfold prepare at prepared
  split at prepared
  · cases prepared
  · rename_i fragments found
    dsimp only at prepared
    split at prepared
    · cases prepared
      exact ⟨found, place?_single _⟩
    · cases prepared
      exact ⟨found, place?_single _⟩
  · rename_i all _ found
    have same := fragments_takeFor kept all names
    cases prepared
    constructor
    · rw [found]
      exact congrArg _ same.symm
    · intro index
      unfold createParameters fragments
      dsimp only
      rw [List.map_map]
      rfl

namespace Sql

open Text Grammar

/-- The parameter is bound to the mark of the same number in the text of the pieces: the statement that has it
is a piece, and the mark is there where that statement has the parameter. -/
def BindsMark (pieces : List Piece) (query : Query) (i : Nat) : Prop :=
  ∃ earlier p later front k j, pieces = earlier ++ p :: later ∧
    query.createParameters.place? i = some (k, j) ∧ query.fragments[k]? = some p.fragments ∧
    IsMark p.segments front j ∧ IsMark (Piece.joined pieces) (Piece.leading earlier ++ front) i

theorem bindsMark {pieces : List Piece}
    (counts : ∀ p ∈ pieces, p.fragments.placeholderCount = p.segments.count .mark) {query : Query}
    (place : ∀ index, query.createParameters.place? index =
      (Parameters.composite (query.fragments.map fun f => .ofCount f.placeholderCount)).place? index)
    (same : query.fragments = Fragments.nonBlank (pieces.map (·.fragments))) {i : Nat} (positive : 1 ≤ i)
    (below : i ≤ (pieces.map fun p => p.fragments.placeholderCount).sum) : BindsMark pieces query i := by
  obtain ⟨earlier, p, later, front, j, rfl, full, isMark, number, owner⟩ := owner?_of_pieces counts positive below
  have inside : p.fragments ∈ (earlier ++ p :: later).map (·.fragments) := List.mem_map_of_mem (by simp)
  rw [Fragments.nonBlank_of_mem inside full, List.filter_map] at same
  obtain ⟨after, joined⟩ := Piece.joined_append earlier p later
  refine ⟨earlier, p, later, front, (earlier.filter (!·.isBlank)).length, j, rfl, ?_, ?_, isMark, ?_⟩
  · obtain ⟨n, rfl⟩ := Nat.exists_eq_add_one.2 positive
    have owner : CompositeParameters.owner? (query.fragments.map fun f => .ofCount f.placeholderCount) (n + 1) =
        some ((earlier.filter (!·.isBlank)).length, j) := by
      rw [same, List.map_map]
      exact owner
    rw [place, place?_composite, owner]
  · have filtered : (earlier ++ p :: later).filter (!·.isBlank) =
        earlier.filter (!·.isBlank) ++ p :: later.filter (!·.isBlank) := by simp [full]
    rw [same]
    change (((earlier ++ p :: later).filter (!·.isBlank)).map (·.fragments))[_]? = _
    rw [filtered, List.getElem?_map, List.getElem?_append_right (Nat.le_refl _), Nat.sub_self]
    rfl
  · have earlierCounts : ∀ q ∈ earlier, q.fragments.placeholderCount = q.segments.count .mark := fun q member =>
      counts q (List.mem_append_left _ member)
    rw [joined, number, ← Piece.count_leading earlierCounts]
    exact isMark.inside _ _

/-- The statements of a text are its pieces between the terminators that no construct encloses, without the
blank ones; the text is split where its pieces are, and fails to split for the same reason. So the statements
have as many placeholders as the text, and the parameters of a query are the marks of its text in order. -/
theorem splitStatements_refines (standard : Bool) (text : Text) :
    (∀ e, splitStatements standard text = .error e ↔ split standard text = .error e) ∧
    ∀ whole, split standard text = .ok whole → ∃ pieces : List Piece,
      (∀ p ∈ pieces, p.IsSplit standard) ∧
      text = [';'].intercalate (pieces.map (·.text)) ∧
      IsSegmentation standard (utf8 text) (Piece.joined pieces) ∧
      whole = .glued (pieces.map (·.fragments)) ∧
      splitStatements standard text = .ok (Fragments.nonBlank (pieces.map (·.fragments))) ∧
      ((Fragments.nonBlank (pieces.map (·.fragments))).map Fragments.placeholderCount).sum = whole.placeholderCount ∧
      whole.placeholderCount = (Piece.joined pieces).count .mark ∧
      ∀ kept caps config names query names', caps.standardConformingStrings = standard →
        Query.prepare text kept caps config names = .ok (query, names') →
          query.fragments = Fragments.nonBlank (pieces.map (·.fragments)) ∧
          ∀ i, (query.createParameters.place? i ≠ none ↔ 1 ≤ i ∧ i ≤ whole.placeholderCount) ∧
            (1 ≤ i → i ≤ whole.placeholderCount → BindsMark pieces query i) := by
  constructor
  · exact splitStatements_eq_error_iff standard text
  intro whole done
  obtain ⟨pieces, each, texts, isSegmentation, glued, statements⟩ := exists_pieces done
  have counts : ∀ p ∈ pieces, p.fragments.placeholderCount = p.segments.count .mark := fun p member =>
    (each p member).count
  have total : whole.placeholderCount = (pieces.map fun p => p.fragments.placeholderCount).sum := by
    rw [glued, Fragments.placeholderCount_glued, List.map_map]
    rfl
  have kept : ((Fragments.nonBlank (pieces.map (·.fragments))).map Fragments.placeholderCount).sum =
      whole.placeholderCount := by
    rw [Fragments.sum_nonBlank, total, List.map_map]
    rfl
  refine ⟨pieces, each, texts, isSegmentation, glued, statements, kept, count_of_split done isSegmentation, ?_⟩
  rintro isKept caps config names query names' rfl prepared
  obtain ⟨found, place⟩ := Query.prepare_fragments prepared
  have same := Except.ok.inj (found.symm.trans statements)
  refine ⟨same, fun i => ⟨?_, ?_⟩⟩
  · rw [place, place?_ne_none_iff, same, ← kept, List.map_map]
    simp [Function.comp_def, ParameterList.ofCount]
  · intro positive below
    exact bindsMark counts place same positive (total ▸ below)

def pairQuery : Query :=
  .composite [.ofFragments ⟨"SELECT ".toList, [[]]⟩ .unnamed,
    .ofFragments ⟨" SELECT '?;', ".toList, [[]]⟩ .unnamed]

theorem splitStatements_refines_pair :
    split true "SELECT ?; ; SELECT '?;', ?".toList = .ok ⟨"SELECT ".toList, ["; ; SELECT '?;', ".toList, []]⟩ ∧
      Query.prepare "SELECT ?; ; SELECT '?;', ?".toList false .default .default .fresh = .ok (pairQuery, .fresh) ∧
      ∃ pieces, BindsMark pieces pairQuery 2 := by
  have done : split true "SELECT ?; ; SELECT '?;', ?".toList =
      .ok ⟨"SELECT ".toList, ["; ; SELECT '?;', ".toList, []]⟩ := by cbv
  have prepared : Query.prepare "SELECT ?; ; SELECT '?;', ?".toList false .default .default .fresh =
      .ok (pairQuery, .fresh) := by cbv
  obtain ⟨pieces, -, -, -, -, -, -, -, holds⟩ := (splitStatements_refines true _).2 _ done
  obtain ⟨-, binds⟩ := holds false .default .default .fresh pairQuery .fresh rfl prepared
  exact ⟨done, prepared, pieces, (binds 2).2 (by decide) (by decide)⟩

end Sql

end ExtendedQuery
