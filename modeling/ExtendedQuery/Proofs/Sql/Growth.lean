import ExtendedQuery.Sql.Insert
import Mathlib

/-!
# Growing an insert

An insert that can grow is given more rows in three ways: its fragments are grown, its native text is
grown, or its text is read with more groups of marks written after it. Each row is appended to the rows
before it (`Fragments.grow_succ`, `growText_succ`, `Lexeme.scanAfter_markGroups`), so the three agree by induction on
the rows. Main statement: `grow_agrees`.
-/

namespace ExtendedQuery.Sql

namespace Fragments

/-! ## Fragments one after the other -/

def joined (b : Fragments) : (first : Text) → (later : List Text) → Fragments
  | first, [] => ⟨first ++ b.first, b.later⟩
  | first, part :: later => ⟨first, (joined b part later).parts⟩

def append (a b : Fragments) : Fragments := joined b a.first a.later

theorem append_of_later {a : Fragments} {front : List Text} {last : Text}
    (later : a.later = front ++ [last]) (b : Fragments) :
    a.append b = ⟨a.first, front ++ (last ++ b.first) :: b.later⟩ := by
  obtain ⟨first, later⟩ := a
  subst later
  induction front generalizing first with
  | nil => rfl
  | cons part front ih =>
    have inner := ih part
    unfold append at inner ⊢
    rw [List.cons_append, joined, inner]
    rfl

theorem placeholderCount_pos {fragments : Fragments} (marks : fragments.later ≠ []) :
    0 < fragments.placeholderCount := List.length_pos_iff.2 marks

theorem placeholderCount_append (a b : Fragments) :
    (a.append b).placeholderCount = a.placeholderCount + b.placeholderCount := by
  obtain ⟨first, later⟩ := a
  induction later generalizing first with
  | nil => simp [append, joined, placeholderCount]
  | cons part later ih =>
    have inner := ih part
    simp [append, joined, placeholderCount, parts] at inner ⊢
    omega

theorem prepend_append (lexeme : Lexeme) (a b : Fragments) :
    (a.append b).prepend lexeme = (a.prepend lexeme).append b := by
  obtain ⟨first, later⟩ := a
  cases lexeme with
  | mark => rfl
  | _ => cases later <;> simp [append, joined, prepend]

theorem ofLexemes_append (a b : List Lexeme) :
    ofLexemes (a ++ b) = (ofLexemes a).append (ofLexemes b) := by
  induction a with
  | nil => rfl
  | cons lexeme a ih =>
    rw [List.cons_append, ofLexemes, List.foldr_cons, ← ofLexemes, ih, prepend_append]
    rfl

/-! ## Numbered placeholders -/

@[simp] theorem numbered_nil (n : Nat) : numbered n [] = [] := rfl

@[simp] theorem numbered_cons (n : Nat) (part : Text) (later : List Text) :
    numbered n (part :: later) = placeholder n ++ part ++ numbered (n + 1) later := rfl

theorem native_append (a b : Fragments) :
    (a.append b).native = a.native ++ b.first ++ numbered (a.placeholderCount + 1) b.later := by
  have inner (n : Nat) (first : Text) (later : List Text) :
      (joined b first later).first ++ numbered n (joined b first later).later =
        first ++ numbered n later ++ b.first ++ numbered (n + later.length) b.later := by
    induction later generalizing n first with
    | nil => simp [joined]
    | cons part later ih =>
      have rest := ih (n + 1) part
      simp only [List.append_assoc] at rest
      simp [joined, parts, rest, Nat.add_assoc, Nat.add_comm 1]
  have whole := inner 1 a.first a.later
  rw [Nat.add_comm 1] at whole
  exact whole

/-! ## One more row -/

def row (arity : Nat) : Fragments := ⟨[',', '('], rowFragments arity [')']⟩

theorem length_rowFragments {arity : Nat} (positive : 0 < arity) (last : Text) :
    (rowFragments arity last).length = arity := by
  simp [rowFragments]
  omega

theorem placeholderCount_row {arity : Nat} (positive : 0 < arity) :
    (row arity).placeholderCount = arity := length_rowFragments positive _

@[simp] theorem grow_one (fragments : Fragments) : fragments.grow 1 = fragments := rfl

theorem grow_succ {fragments : Fragments} (growable : fragments.later ≠ []) {rows : Nat}
    (positive : 0 < rows) :
    fragments.grow (rows + 1) = (fragments.grow rows).append (row fragments.placeholderCount) := by
  generalize arity : fragments.placeholderCount = p
  obtain ⟨first, later⟩ := fragments
  obtain ⟨front, last, rfl⟩ := (List.eq_nil_or_concat later).resolve_left growable
  rw [List.concat_eq_append] at arity ⊢
  -- Only a later row ends in fragments that have grown already.
  match rows with
  | 1 =>
    rw [grow_one, append_of_later rfl]
    simp [grow, row, arity]
  | rows + 2 =>
    have grown : (grow ⟨first, front ++ [last]⟩ (rows + 2)).later =
        (front ++ [last ++ [',', '(']] ++ (List.replicate rows (rowFragments p [')', ',', '('])).flatten ++
          List.replicate (p - 1) [',']) ++ [[')']] := by
      simp [grow, arity, rowFragments]
    rw [append_of_later grown]
    simp [grow, arity, row, List.replicate_succ', rowFragments]

theorem numbered_rowFragments (n m : Nat) :
    numbered n (List.replicate m [','] ++ [[')']]) =
      [','].intercalate ((List.range' n (m + 1)).map placeholder) ++ [')'] := by
  induction m generalizing n with
  | zero => simp [List.range'_succ]
  | succ m ih =>
    rw [List.replicate_succ, List.cons_append, numbered_cons, ih, List.range'_succ, List.range'_succ]
    simp [List.range'_succ]

theorem numbered_row {arity : Nat} (positive : 0 < arity) (n : Nat) :
    (row arity).first ++ numbered n (row arity).later = rowGroup arity n := by
  obtain ⟨m, rfl⟩ := Nat.exists_eq_add_one.2 positive
  simp [row, rowFragments, rowGroup, numbered_rowFragments]

end Fragments

theorem growText_succ (native : Text) (arity : Nat) {rows : Nat} (positive : 0 < rows) :
    growText native arity (rows + 1) = growText native arity rows ++ rowGroup arity (rows * arity + 1) := by
  obtain ⟨m, rfl⟩ := Nat.exists_eq_add_one.2 positive
  simp [growText, List.range'_concat, Nat.add_comm 1]

namespace Fragments

theorem placeholderCount_grow {fragments : Fragments} (growable : fragments.later ≠ []) {rows : Nat}
    (positive : 0 < rows) :
    (fragments.grow rows).placeholderCount = fragments.placeholderCount * rows := by
  have arity := placeholderCount_pos growable
  induction rows, positive using Nat.le_induction with
  | base => simp
  | succ rows positive ih =>
    rw [grow_succ growable positive, placeholderCount_append, ih, placeholderCount_row arity,
      Nat.mul_succ]

theorem native_grow {fragments : Fragments} (growable : fragments.later ≠ []) {rows : Nat}
    (positive : 0 < rows) :
    (fragments.grow rows).native = growText fragments.native fragments.placeholderCount rows := by
  have arity := placeholderCount_pos growable
  induction rows, positive using Nat.le_induction with
  | base => simp [growText]
  | succ rows positive ih =>
    rw [grow_succ growable positive, native_append, ih, growText_succ _ _ positive, List.append_assoc,
      numbered_row arity, placeholderCount_grow growable positive, Nat.mul_comm rows]

end Fragments

/-! ## Reading a text that goes on

A lexeme is read in the same way when more text follows, if a parenthesis stands after it: it neither
reaches the end of the text nor depends on what is there. -/

namespace Lexeme

theorem closeLiteral_append {escapes : Bool} {seen text t later : Text}
    (h : closeLiteral escapes seen text = some (t, later)) (inside : later ≠ []) (suffix : Text) :
    closeLiteral escapes seen (text ++ suffix) = some (t, later ++ suffix) := by
  fun_induction closeLiteral escapes seen text with
  | case1 => cases h
  | case2 => cases h; exact absurd rfl inside
  | case3 => cases h
  | case4 seen c d rest escape ih => simpa [closeLiteral, escape] using ih h
  | case5 seen rest noEscape ih => simpa [closeLiteral, noEscape] using ih h
  | case6 seen d rest single noEscape =>
    cases h
    simp [closeLiteral, single]
  | case7 seen c d rest noEscape notQuote ih => simpa [closeLiteral, noEscape, notQuote] using ih h

theorem closeIdentifier_append {seen text t later : Text}
    (h : closeIdentifier seen text = some (t, later)) (suffix : Text) :
    closeIdentifier seen (text ++ suffix) = some (t, later ++ suffix) := by
  fun_induction closeIdentifier seen text with
  | case1 => cases h
  | case2 => cases h; simp [closeIdentifier]
  | case3 seen c rest other ih => simpa [closeIdentifier, other] using ih h

theorem closeLine_append {seen text : Text} (inside : (closeLine seen text).2 ≠ []) (suffix : Text) :
    closeLine seen (text ++ suffix) = ((closeLine seen text).1, (closeLine seen text).2 ++ suffix) := by
  fun_induction closeLine seen text with
  | case1 => exact absurd rfl inside
  | case2 seen c rest isEnd => simp [closeLine, isEnd]
  | case3 seen c rest inner ih => simpa [closeLine, inner] using ih inside

theorem closeComment_append {depth : Nat} {seen text t later : Text}
    (h : closeComment depth seen text = some (t, later)) (suffix : Text) :
    closeComment depth seen (text ++ suffix) = some (t, later ++ suffix) := by
  fun_induction closeComment depth seen text with
  | case1 => cases h
  | case2 => cases h
  | case3 depth seen c d rest opens ih => simpa [closeComment, opens] using ih h
  | case4 seen c d rest notOpen shuts => cases h; simp [closeComment, shuts]
  | case5 seen c d rest notOpen shuts outer ih => simpa [closeComment, notOpen, shuts] using ih h
  | case6 depth seen c d rest notOpen notShut ih => simpa [closeComment, notOpen, notShut] using ih h

theorem length_le_of_closeDollar {tag seen text : Text} {closing : Text × Text}
    (h : closeDollar tag seen text = some closing) : tag.length ≤ text.length := by
  fun_induction closeDollar tag seen text with
  | case1 => cases h
  | case2 seen c rest starts => exact (List.isPrefixOf_iff_prefix.1 starts).length_le
  | case3 seen c rest starts ih => exact Nat.le_succ_of_le (ih h)

theorem closeDollar_append {tag seen text t later : Text}
    (h : closeDollar tag seen text = some (t, later)) (suffix : Text) :
    closeDollar tag seen (text ++ suffix) = some (t, later ++ suffix) := by
  fun_induction closeDollar tag seen text with
  | case1 => cases h
  | case2 seen c rest starts =>
    cases h
    have starts' := List.isPrefixOf_iff_prefix.1 starts
    have longer : tag.isPrefixOf (c :: (rest ++ suffix)) = true :=
      List.isPrefixOf_iff_prefix.2 (starts'.trans (List.prefix_append (c :: rest) suffix))
    rw [List.cons_append, closeDollar, if_pos longer, ← List.cons_append,
      List.drop_append_of_le_length starts'.length_le]
  | case3 seen c rest starts ih =>
    have longer : ¬ tag.isPrefixOf (c :: (rest ++ suffix)) = true := by
      rw [List.isPrefixOf_iff_prefix] at starts ⊢
      intro starts'
      refine starts (List.prefix_of_prefix_length_le starts' (List.prefix_append (c :: rest) suffix) ?_)
      exact Nat.le_succ_of_le (length_le_of_closeDollar h)
    rw [List.cons_append, closeDollar, if_neg longer]
    exact ih h

theorem dollarTag?_append {before rest : Text} (inside : ')' ∈ rest) (suffix : Text) :
    dollarTag? before (rest ++ suffix) = dollarTag? before rest := by
  have stops {p : Char → Bool} (stop : p ')' = false) : rest.dropWhile p ≠ [] := by
    intro all
    rw [List.dropWhile_eq_nil_iff] at all
    simp [all ')' inside] at stop
  have head : (rest ++ suffix).head? = rest.head? :=
    List.head?_append_of_ne_nil _ (List.ne_nil_of_mem inside)
  unfold dollarTag?
  rw [head]
  dsimp only
  generalize isTag : (fun c => Text.isIdentifierChar c && c != '$') = p
  have stop : p ')' = false := by rw [← isTag]; decide
  obtain ⟨c, later, drop⟩ := List.exists_cons_of_ne_nil (stops stop)
  have dropLonger : (rest ++ suffix).dropWhile p = c :: (later ++ suffix) := by
    rw [List.dropWhile_append, drop]
    rfl
  have takeLonger : (rest ++ suffix).takeWhile p = rest.takeWhile p := by
    have partial' : (rest.takeWhile p).length ≠ rest.length := by
      have whole := congrArg List.length (List.takeWhile_append_dropWhile (p := p) (l := rest))
      rw [drop, List.length_append, List.length_cons] at whole
      omega
    rw [List.takeWhile_append, if_neg partial']
  rw [dropLonger, takeLonger, drop]
  by_cases isDollar : c = '$'
  · subst isDollar
    rfl
  · simp [isDollar]

theorem read_extended {standard : Bool} {before : Text} {c : Char} {rest : Text} {lexeme : Lexeme}
    {later : Text} (h : read standard before c rest = .ok (lexeme, later)) (inside : ')' ∈ later)
    (suffix : Text) : read standard before c (rest ++ suffix) = .ok (lexeme, later ++ suffix) := by
  have later_ne : later ≠ [] := List.ne_nil_of_mem inside
  obtain ⟨taken, -, split⟩ := read_append h
  have inside' : ')' ∈ rest := by simp [split, inside]
  have head : (rest ++ suffix).head? = rest.head? :=
    List.head?_append_of_ne_nil _ (List.ne_nil_of_mem inside')
  have tail : (rest ++ suffix).tail = rest.tail ++ suffix :=
    List.tail_append_of_ne_nil (List.ne_nil_of_mem inside')
  unfold read at h ⊢
  rw [head, tail, dollarTag?_append inside']
  split at h
  · rename_i isQuote
    rw [if_pos isQuote]
    dsimp only at h ⊢
    split at h
    · rename_i closed
      cases h
      rw [closeLiteral_append closed later_ne]
    · cases h
  rename_i notQuote
  rw [if_neg notQuote]
  split at h
  · rename_i isDouble
    rw [if_pos isDouble]
    split at h
    · rename_i closed
      cases h
      rw [closeIdentifier_append closed]
    · cases h
  rename_i notDouble
  rw [if_neg notDouble]
  split at h
  · rename_i isLine
    rw [if_pos isLine]
    cases h
    rw [closeLine_append later_ne]
  rename_i notLine
  rw [if_neg notLine]
  split at h
  · rename_i isComment
    rw [if_pos isComment]
    split at h
    · rename_i closed
      cases h
      rw [closeComment_append closed]
    · cases h
  rename_i notComment
  rw [if_neg notComment]
  split at h
  · rename_i isDollar
    rw [if_pos isDollar]
    split at h
    · rename_i noTag
      cases h
      rfl
    · rename_i tag found
      split at h
      · rename_i closed
        cases h
        have enough : tag.length - 1 ≤ rest.length := by
          obtain ⟨name, after, rfl, rfl⟩ := dollarTag?_eq_some found
          simp
        rw [List.drop_append_of_le_length enough]
        rw [closeDollar_append closed]
      · cases h
  rename_i notDollar
  rw [if_neg notDollar]
  split at h
  · rename_i isMark
    rw [if_pos isMark]
    split at h
    · rename_i doubled
      cases h
      rw [if_pos doubled]
    · rename_i single
      cases h
      rw [if_neg single]
  · rename_i notMark
    cases h
    rw [if_neg notMark]

def IsOrdinary (c : Char) : Prop := c ∉ ['\x27', '"', '-', '/', '$', '?']

theorem read_ordinary {c : Char} (ordinary : IsOrdinary c) (standard : Bool) (before rest : Text) :
    read standard before c rest = .ok (.plain c, rest) := by
  simp only [IsOrdinary, List.mem_cons, not_or] at ordinary
  unfold read
  rw [if_neg ordinary.1, if_neg ordinary.2.1, if_neg (by simp [ordinary]), if_neg (by simp [ordinary]),
    if_neg (by simp [ordinary]), if_neg (by simp [ordinary])]

theorem scanAfter_of_read {standard : Bool} {before : Text} {c : Char} {rest : Text} {lexeme : Lexeme}
    {later : Text} (h : read standard before c rest = .ok (lexeme, later)) (done : List Lexeme) :
    scanAfter standard before done (c :: rest) =
      scanAfter standard (lexeme.text.reverse ++ before) (lexeme :: done) later := by
  rw [scanAfter]
  split
  · rename_i failed
    rw [h] at failed
    cases failed
  · rename_i taken
    rw [h] at taken
    cases taken
    rfl

end Lexeme

namespace Fragments

def ending (fragments : Fragments) : Text := fragments.later.getLast?.getD fragments.first

theorem ending_prepend (lexeme : Lexeme) (fragments : Fragments) :
    (fragments.prepend lexeme).later ≠ [] ∧ (fragments.prepend lexeme).ending = fragments.ending ∨
      lexeme ≠ .mark ∧ fragments.later = [] ∧
        (fragments.prepend lexeme).ending = lexeme.kept ++ fragments.ending := by
  obtain ⟨first, later⟩ := fragments
  cases lexeme with
  | mark => simp [prepend, ending, parts, List.getLast?_cons]
  | _ =>
    cases later with
    | nil => exact .inr ⟨by simp, rfl, by simp [prepend, ending]⟩
    | cons part later => exact .inl ⟨by simp [prepend], by simp [prepend, ending, List.getLast?_cons]⟩

theorem ending_ofLexemes_subset (lexemes : List Lexeme) :
    (ofLexemes lexemes).ending ⊆ lexemes.flatMap Lexeme.text := by
  induction lexemes with
  | nil => simp [ofLexemes, empty, ending]
  | cons lexeme lexemes ih =>
    have kept : lexeme.kept ⊆ lexeme.text := by cases lexeme <;> simp [Lexeme.kept, Lexeme.text]
    rw [ofLexemes, List.foldr_cons, ← ofLexemes, List.flatMap_cons]
    rcases ending_prepend lexeme (ofLexemes lexemes) with ⟨-, same⟩ | ⟨-, -, longer⟩
    · rw [same]
      exact List.subset_append_of_subset_right _ ih
    · rw [longer]
      exact List.append_subset.2 ⟨List.subset_append_of_subset_left _ kept,
        List.subset_append_of_subset_right _ ih⟩

structure Closed (fragments : Fragments) : Prop where
  ordinary : ∀ c ∈ fragments.ending, Lexeme.IsOrdinary c
  parenthesis : fragments.later ≠ [] → ')' ∈ fragments.ending

end Fragments

namespace Lexeme

open Fragments (ofLexemes)

theorem first_mem_kept {lexeme : Lexeme} {c : Char} {inner : Text} (h : lexeme.text = c :: inner) :
    c ∈ lexeme.kept := by
  cases lexeme with
  | escapedMark => cases h; simp [kept]
  | _ => simp [kept, h]

theorem scanAfter_extended {standard : Bool} {before rest : Text} {done all : List Lexeme}
    (h : scanAfter standard before done rest = .ok all) :
    ∃ lexemes, all = done.reverse ++ lexemes ∧ rest = lexemes.flatMap text ∧
      ((ofLexemes lexemes).Closed → ∀ suffix, scanAfter standard before done (rest ++ suffix) =
        scanAfter standard (rest.reverse ++ before) (lexemes.reverse ++ done) suffix) := by
  fun_induction scanAfter standard before done rest with
  | case1 before done =>
    cases h
    exact ⟨[], by simp, rfl, by simp⟩
  | case2 => cases h
  | case3 before done c rest lexeme later taken ih =>
    obtain ⟨lexemes, rfl, rfl, extended⟩ := ih h
    obtain ⟨inner, text, split⟩ := read_append taken
    refine ⟨lexeme :: lexemes, by simp, by simp [text, split], ?_⟩
    intro closed suffix
    rw [ofLexemes, List.foldr_cons, ← ofLexemes] at closed
    -- A lexeme before the last mark has the parenthesis after it, and the ones after the last mark are
    -- ordinary characters.
    have both : (ofLexemes lexemes).Closed ∧
        read standard before c (rest ++ suffix) = .ok (lexeme, lexemes.flatMap Lexeme.text ++ suffix) := by
      rcases Fragments.ending_prepend lexeme (ofLexemes lexemes) with ⟨some, same⟩ | ⟨notMark, none, longer⟩
      · have parenthesis := closed.parenthesis some
        have ordinary := closed.ordinary
        rw [same] at parenthesis ordinary
        exact ⟨⟨ordinary, fun _ => parenthesis⟩,
          read_extended taken (Fragments.ending_ofLexemes_subset lexemes parenthesis) suffix⟩
      · have ordinary := closed.ordinary
        rw [longer] at ordinary
        have alone := read_ordinary (ordinary c (List.mem_append_left _ (first_mem_kept text))) standard
          before
        rw [alone] at taken ⊢
        cases taken
        exact ⟨⟨fun d member => ordinary d (List.mem_append_right _ member), absurd none⟩, rfl⟩
    rw [List.cons_append, scanAfter_of_read both.2, extended both.1, text, split]
    simp

/-! ## Reading groups of marks -/

def groupLexemes (arity : Nat) : List Lexeme :=
  [.plain ',', .plain '('] ++ [.plain ','].intercalate (List.replicate arity [.mark]) ++ [.plain ')']

end Lexeme

def markGroup (arity : Nat) : Text :=
  ",(".toList ++ [','].intercalate (List.replicate arity ['?']) ++ [')']

namespace Lexeme

open Fragments (ofLexemes)

theorem scanAfter_ordinary {c : Char} (ordinary : IsOrdinary c) (standard : Bool) (before rest : Text)
    (done : List Lexeme) : scanAfter standard before done (c :: rest) =
      scanAfter standard (c :: before) (.plain c :: done) rest :=
  scanAfter_of_read (read_ordinary ordinary standard before rest) done

theorem scanAfter_mark (standard : Bool) (before : Text) {rest : Text} (single : rest.head? ≠ some '?')
    (done : List Lexeme) : scanAfter standard before done ('?' :: rest) =
      scanAfter standard ('?' :: before) (.mark :: done) rest := by
  have taken : read standard before '?' rest = .ok (.mark, rest) := by simp [read, single]
  exact scanAfter_of_read taken done

theorem scanAfter_marks (standard : Bool) (m : Nat) (before suffix : Text) (done : List Lexeme) :
    scanAfter standard before done
        ([','].intercalate (List.replicate (m + 1) ['?']) ++ ')' :: suffix) =
      scanAfter standard (')' :: ([','].intercalate (List.replicate (m + 1) ['?'])).reverse ++ before)
        (.plain ')' :: ([.plain ','].intercalate (List.replicate (m + 1) [.mark])).reverse ++ done)
        suffix := by
  induction m generalizing before done with
  | zero =>
    rw [show [','].intercalate (List.replicate (0 + 1) ['?']) = ['?'] from rfl, List.singleton_append,
      scanAfter_mark standard before (by simp), scanAfter_ordinary (by simp [IsOrdinary])]
    rfl
  | succ m ih =>
    have text : [','].intercalate (List.replicate (m + 1 + 1) ['?']) =
        '?' :: ',' :: [','].intercalate (List.replicate (m + 1) ['?']) := by
      simp [List.replicate_succ]
    have lexemes : [plain ','].intercalate (List.replicate (m + 1 + 1) [mark]) =
        mark :: plain ',' :: [plain ','].intercalate (List.replicate (m + 1) [mark]) := by
      simp [List.replicate_succ]
    rw [text, lexemes, List.cons_append, scanAfter_mark standard before (by simp), List.cons_append,
      scanAfter_ordinary (by simp [IsOrdinary]), ih]
    simp

theorem scanAfter_markGroup {arity : Nat} (positive : 0 < arity) (standard : Bool) (before suffix : Text)
    (done : List Lexeme) :
    scanAfter standard before done (markGroup arity ++ suffix) =
      scanAfter standard ((markGroup arity).reverse ++ before) ((groupLexemes arity).reverse ++ done)
        suffix := by
  obtain ⟨m, rfl⟩ := Nat.exists_eq_add_one.2 positive
  have split : markGroup (m + 1) ++ suffix =
      ',' :: '(' :: ([','].intercalate (List.replicate (m + 1) ['?']) ++ ')' :: suffix) := by
    simp [markGroup]
  rw [split, scanAfter_ordinary (by simp [IsOrdinary]), scanAfter_ordinary (by simp [IsOrdinary]),
    scanAfter_marks]
  simp [markGroup, groupLexemes]

theorem scanAfter_markGroups {arity : Nat} (positive : 0 < arity) (standard : Bool) (count : Nat)
    (before : Text) (done : List Lexeme) :
    scanAfter standard before done (List.replicate count (markGroup arity)).flatten =
      .ok (done.reverse ++ (List.replicate count (groupLexemes arity)).flatten) := by
  induction count generalizing before done with
  | zero => simp [scanAfter]
  | succ count ih =>
    rw [List.replicate_succ, List.flatten_cons, scanAfter_markGroup positive, ih]
    simp [List.replicate_succ]

theorem ofLexemes_groupLexemes {arity : Nat} (positive : 0 < arity) :
    ofLexemes (groupLexemes arity) = Fragments.row arity := by
  obtain ⟨m, rfl⟩ := Nat.exists_eq_add_one.2 positive
  have inner : ofLexemes ([.plain ','].intercalate (List.replicate (m + 1) [.mark]) ++ [.plain ')']) =
      ⟨[], List.replicate m [','] ++ [[')']]⟩ := by
    induction m with
    | zero => rfl
    | succ m ih =>
      have lexemes : [plain ','].intercalate (List.replicate (m + 1 + 1) [mark]) =
          mark :: plain ',' :: [plain ','].intercalate (List.replicate (m + 1) [mark]) := by
        simp [List.replicate_succ]
      rw [lexemes, List.cons_append, List.cons_append, ofLexemes, List.foldr_cons, List.foldr_cons,
        ← ofLexemes, ih (by simp)]
      rfl
  rw [groupLexemes, List.append_assoc, ofLexemes, List.foldr_append, ← ofLexemes, inner]
  rfl

end Lexeme

namespace Fragments

theorem ofLexemes_groups {lexemes : List Lexeme} (growable : (ofLexemes lexemes).later ≠ [])
    (count : Nat) :
    ofLexemes (lexemes ++ (List.replicate count
        (Lexeme.groupLexemes (ofLexemes lexemes).placeholderCount)).flatten) =
      (ofLexemes lexemes).grow (count + 1) := by
  have arity := placeholderCount_pos growable
  induction count with
  | zero => simp
  | succ count ih =>
    rw [List.replicate_succ', List.flatten_append, ← List.append_assoc, ofLexemes_append, ih,
      List.flatten_singleton, Lexeme.ofLexemes_groupLexemes arity,
      grow_succ growable (Nat.succ_pos count)]

/-! ## The end of an insert that can grow -/

theorem closesValues_getLast? {later : List Text} (h : closesValues later = true) :
    ∃ last, later.getLast? = some last ∧ Text.trim last = [')'] := by
  fun_induction closesValues later with
  | case1 => cases h
  | case2 last => exact ⟨last, rfl, by simpa using h⟩
  | case3 separator later several ih =>
    simp only [Bool.and_eq_true] at h
    obtain ⟨last, found, trimmed⟩ := ih h.2
    exact ⟨last, by simp [List.getLast?_cons, found], trimmed⟩

theorem mem_of_trim {text : Text} {d : Char} (h : Text.trim text = [d]) :
    d ∈ text ∧ ∀ c ∈ text, Text.isBlank c = true ∨ c = d := by
  have ends : (Text.trimStart text).reverse.dropWhile Text.isBlank = [d] := by
    have reversed := congrArg List.reverse h
    simpa [Text.trim, Text.trimEnd] using reversed
  have back := List.takeWhile_append_dropWhile (p := Text.isBlank) (l := (Text.trimStart text).reverse)
  have front := List.takeWhile_append_dropWhile (p := Text.isBlank) (l := text)
  have inner (c : Char) : c ∈ Text.trimStart text → Text.isBlank c = true ∨ c = d := by
    intro member
    rw [← List.mem_reverse, ← back, ends, List.mem_append, List.mem_singleton] at member
    exact member.imp_left fun blank => List.all_eq_true.1 List.all_takeWhile c blank
  constructor
  · have found : d ∈ (Text.trimStart text).reverse := by rw [← back, ends]; simp
    exact List.dropWhile_subset _ (List.mem_reverse.1 found)
  · intro c member
    rw [← front, List.mem_append] at member
    rcases member with blank | later
    · exact .inl (List.all_eq_true.1 List.all_takeWhile c blank)
    · exact inner c later

theorem isOrdinary_of_isBlank {c : Char} (blank : Text.isBlank c = true) : Lexeme.IsOrdinary c := by
  intro member
  simp only [List.mem_cons, List.not_mem_nil, or_false] at member
  rcases member with rfl | rfl | rfl | rfl | rfl | rfl <;> exact absurd blank (by decide)

theorem later_ne_nil_of_isGrowable {fragments : Fragments} (growable : fragments.isGrowable = true) :
    fragments.later ≠ [] := by
  intro none
  simp [isGrowable, none, closesValues] at growable

theorem closed_of_isGrowable {fragments : Fragments} (growable : fragments.isGrowable = true) :
    fragments.Closed := by
  simp only [isGrowable, Bool.and_eq_true] at growable
  obtain ⟨last, found, trimmed⟩ := closesValues_getLast? growable.2
  have same : fragments.ending = last := by simp [ending, found]
  obtain ⟨parenthesis, others⟩ := mem_of_trim trimmed
  constructor
  · intro c member
    rw [same] at member
    rcases others c member with blank | rfl
    · exact isOrdinary_of_isBlank blank
    · simp [Lexeme.IsOrdinary]
  · intro _
    rwa [same]

end Fragments

open Fragments in
theorem grow_agrees {standard : Bool} {text : Text} {fragments : Fragments} {rows : Nat}
    (divided : split standard text = .ok fragments) (growable : fragments.isGrowable = true)
    (several : 2 ≤ rows) :
    (fragments.grow rows).placeholderCount = fragments.placeholderCount * rows ∧
      (fragments.grow rows).native = growText fragments.native fragments.placeholderCount rows ∧
      split standard
          (text ++ (List.replicate (rows - 1) (markGroup fragments.placeholderCount)).flatten) =
        .ok (fragments.grow rows) ∧
      (fragments.grow rows).native =
        fragments.first ++ numbered 1 fragments.later ++ (List.range' 2 (rows - 1)).flatMap fun r =>
          ",(".toList ++ [','].intercalate ((List.range' ((r - 1) * fragments.placeholderCount + 1)
            fragments.placeholderCount).map placeholder) ++ [')'] := by
  have marks := later_ne_nil_of_isGrowable growable
  have positive : 0 < rows := Nat.lt_of_lt_of_le Nat.zero_lt_two several
  have native := native_grow marks positive
  refine ⟨placeholderCount_grow marks positive, native, ?_, ?_⟩
  · unfold split Lexeme.scan at divided ⊢
    cases scanned : Lexeme.scanAfter standard [] [] text with
    | error e => rw [scanned] at divided; cases divided
    | ok all =>
      rw [scanned] at divided
      cases divided
      obtain ⟨lexemes, same, -, extended⟩ := Lexeme.scanAfter_extended scanned
      rw [List.reverse_nil, List.nil_append] at same
      subst same
      rw [extended (closed_of_isGrowable growable),
        Lexeme.scanAfter_markGroups (placeholderCount_pos marks), List.append_nil, List.reverse_reverse]
      simp only [Except.map]
      rw [ofLexemes_groups marks, Nat.sub_add_cancel positive]
  · have further : List.range' 2 (rows - 1) = (List.range' 1 (rows - 1)).map (· + 1) := by
      simp only [Nat.add_comm _ 1, List.map_add_range']
    rw [native, growText, further, List.flatMap_map]
    rfl

theorem grow_agrees_three :
    2 ≤ 3 ∧ (Fragments.mk "INSERT INTO t VALUES (".toList [", ".toList, ")".toList]).isGrowable = true ∧
      ((Fragments.mk "INSERT INTO t VALUES (".toList [", ".toList, ")".toList]).grow 3).native =
        "INSERT INTO t VALUES ($1, $2),($3,$4),($5,$6)".toList ∧
      split true ("INSERT INTO t VALUES (?, ?)".toList ++ (List.replicate 2 (markGroup 2)).flatten) =
        .ok ((Fragments.mk "INSERT INTO t VALUES (".toList [", ".toList, ")".toList]).grow 3) := by
  have divided : split true "INSERT INTO t VALUES (?, ?)".toList =
      .ok ⟨"INSERT INTO t VALUES (".toList, [", ".toList, ")".toList]⟩ := by cbv
  have growable : (Fragments.mk "INSERT INTO t VALUES (".toList
      [", ".toList, ")".toList]).isGrowable = true := by decide
  have agrees := grow_agrees divided growable (show 2 ≤ 3 by decide)
  exact ⟨by decide, growable, agrees.2.1.trans (by cbv), agrees.2.2.1⟩

end ExtendedQuery.Sql
