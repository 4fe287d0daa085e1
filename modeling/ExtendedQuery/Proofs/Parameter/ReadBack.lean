import ExtendedQuery.Parameter.List
import ExtendedQuery.Proofs.Sql.Growth

/-!
# Literals read back

A text is written as a literal by rules that know the settings of the server, and a literal is read by rules
that know the setting for plain literals and the characters in front of the quote. The content of a literal
(`Lexeme.literalContent`) is defined for exactly the texts that the reader takes as the whole of a literal.
Main statement: `ParameterList.literal_reads_back`, a text that is written for a parameter is read as one
literal, and its content is the text.
-/

namespace ExtendedQuery

namespace Sql.Lexeme

/-- What stands for itself between the quotes, when the text starts behind the first quote and ends with
the last one. -/
def literalContent (escapes : Bool) : Text → Option Text
  | [] => none
  | [c] => if c = '\x27' then some [] else none
  | c :: d :: rest =>
    if c = '\x5c' ∧ escapes then (literalContent escapes rest).map (d :: ·)
    else if c = '\x27' then
      if d = '\x27' then (literalContent escapes rest).map ('\x27' :: ·) else none
    else (literalContent escapes (d :: rest)).map (c :: ·)

theorem literalContent_isSome_iff {escapes : Bool} (seen text : Text) :
    (literalContent escapes text).isSome = true ↔
      closeLiteral escapes seen text = some (seen.reverse ++ text, []) := by
  fun_induction closeLiteral escapes seen text with
  | case1 => simp [literalContent]
  | case2 seen => simp [literalContent]
  | case3 seen c notQuote => simp [literalContent, notQuote]
  | case4 seen c d rest escape ih => simpa [literalContent, escape] using ih
  | case5 seen rest notEscape ih => simpa [literalContent] using ih
  | case6 seen d rest single notEscape => simp [literalContent, single]
  | case7 seen c d rest notEscape notQuote ih => simpa [literalContent, notEscape, notQuote] using ih

theorem literalContent_plain {escapes : Bool} {c : Char} (notQuote : c ≠ '\x27')
    (notEscape : ¬(c = '\x5c' ∧ escapes = true)) (text : Text) :
    literalContent escapes (c :: text) = (literalContent escapes text).map (c :: ·) := by
  cases text with
  | nil => simp [literalContent, notQuote]
  | cons d rest => simp [literalContent, notQuote, notEscape]

variable {standard : Bool} {mark tail content : Text}

theorem read_literal {before : Text}
    (reads : literalContent (!standard || opensEscapes before) tail = some content) :
    read standard before '\x27' tail =
      .ok (.literal (!standard || opensEscapes before) ('\x27' :: tail), []) := by
  have closed := (literalContent_isSome_iff ['\x27'] tail).1 (by rw [reads]; rfl)
  simp only [List.reverse_singleton, List.singleton_append] at closed
  simp [read, closed]

theorem scanAfter_literal (ordinary : ∀ c ∈ mark, IsOrdinary c) (before : Text)
    (reads : literalContent (!standard || opensEscapes (mark.reverse ++ before)) tail = some content)
    (done : List Lexeme) :
    scanAfter standard before done (mark ++ '\x27' :: tail) =
      .ok (done.reverse ++ (mark.map .plain ++
        [.literal (!standard || opensEscapes (mark.reverse ++ before)) ('\x27' :: tail)])) := by
  induction mark generalizing before done with
  | nil =>
    simp only [List.reverse_nil, List.nil_append] at reads ⊢
    rw [scanAfter_of_read (read_literal reads)]
    simp [scanAfter]
  | cons c mark ih =>
    have before' : (c :: mark).reverse ++ before = mark.reverse ++ c :: before := by simp
    rw [before'] at reads ⊢
    rw [List.cons_append, scanAfter_ordinary (ordinary c (by simp)),
      ih (fun d member => ordinary d (by simp [member])) (c :: before) reads]
    simp

theorem scan_literal (ordinary : ∀ c ∈ mark, IsOrdinary c)
    (reads : literalContent (!standard || opensEscapes mark.reverse) tail = some content) :
    scan standard (mark ++ '\x27' :: tail) =
      .ok (mark.map .plain ++ [.literal (!standard || opensEscapes mark.reverse) ('\x27' :: tail)]) := by
  have scanned := scanAfter_literal ordinary [] (by rwa [List.append_nil]) []
  simpa [scan] using scanned

end Sql.Lexeme

namespace Sql.Fragments

theorem ofLexemes_plain (text : Text) (lexemes : List Lexeme) :
    ofLexemes (text.map .plain ++ lexemes) =
      ⟨text ++ (ofLexemes lexemes).first, (ofLexemes lexemes).later⟩ := by
  induction text with
  | nil => rfl
  | cons c text ih =>
    rw [List.map_cons, List.cons_append, ofLexemes, List.foldr_cons, ← ofLexemes, ih]
    rfl

end Sql.Fragments

namespace Literal

open Sql Lexeme

theorem literalContent_escaped (standard : Bool) (text : Text) :
    literalContent (!standard) (text.flatMap (escapedChar standard) ++ ['\x27']) = some text := by
  induction text with
  | nil => rfl
  | cons c text ih =>
    rw [List.flatMap_cons, List.append_assoc]
    by_cases isQuote : c = '\x27'
    · subst isQuote
      have written : escapedChar standard '\x27' = ['\x27', '\x27'] := by simp [escapedChar]
      simp [written, literalContent, ih]
    by_cases isEscape : c = '\x5c' ∧ (!standard) = true
    · obtain ⟨rfl, on⟩ := isEscape
      have written : escapedChar standard '\x5c' = ['\x5c', '\x5c'] := by simp [escapedChar, on]
      rw [written, List.cons_append, List.cons_append, literalContent, if_pos ⟨rfl, on⟩, List.nil_append, ih]
      rfl
    · have written : escapedChar standard c = [c] := by rw [escapedChar, if_neg isQuote, if_neg isEscape]
      rw [written, List.singleton_append, literalContent_plain isQuote isEscape, ih]
      rfl

def markOf (caps : Capabilities) (text : Text) : Text :=
  if '\x5c' ∈ text ∧ caps.standardConformingStrings = false ∧ caps.extendedEscapes = true then ['E'] else []

theorem ofText_of_noZero {text : Text} (noZero : '\x00' ∉ text) (caps : Capabilities) :
    ofText caps text = markOf caps text ++
      '\x27' :: (text.flatMap (escapedChar caps.standardConformingStrings) ++ ['\x27']) := by
  simp [ofText, markOf, noZero, and_assoc]

theorem escapes_of_mark (caps : Capabilities) (text : Text) :
    (!caps.standardConformingStrings || opensEscapes (markOf caps text).reverse) =
      !caps.standardConformingStrings := by
  unfold markOf
  split
  · rename_i marked
    rw [marked.2.1]
    rfl
  · simp [opensEscapes]

theorem isOrdinary_of_mark (caps : Capabilities) (text : Text) : ∀ c ∈ markOf caps text, IsOrdinary c := by
  intro c member
  unfold markOf at member
  split at member
  · rw [List.mem_singleton.1 member]
    simp [IsOrdinary]
  · cases member

end Literal

open Sql

theorem ParameterList.literal_of_value {list : ParameterList} {index : Nat} {s : String}
    (held : list.value index = .ok (some (.text s))) (caps : Capabilities) :
    list.literal index caps = .ok (Literal.ofText caps s.toList) := by
  unfold ParameterList.value at held
  cases found : list.get index with
  | error e => rw [found] at held; cases held
  | ok p =>
    rw [found] at held
    obtain ⟨slot, oid, direction, format⟩ := p
    cases slot with
    | unbound => cases held
    | null => cases held
    | value v =>
      cases held
      rw [literal, found]
      rfl

theorem ParameterList.literal_reads_back {list : ParameterList} {index : Nat} {s : String}
    (held : list.value index = .ok (some (.text s))) (noZero : '\x00' ∉ s.toList) (caps : Capabilities) :
    ∃ mark tail escapes,
      list.literal index caps = .ok (mark ++ '\x27' :: tail) ∧
      split caps.standardConformingStrings (mark ++ '\x27' :: tail) = .ok ⟨mark ++ '\x27' :: tail, []⟩ ∧
      Lexeme.scan caps.standardConformingStrings (mark ++ '\x27' :: tail) =
        .ok (mark.map .plain ++ [.literal escapes ('\x27' :: tail)]) ∧
      Lexeme.literalContent escapes tail = some s.toList ∧
      (escapes = true ↔ caps.standardConformingStrings = false ∨ mark = ['E']) ∧
      (mark = [] ∨ mark = ['E']) ∧
      (mark = ['E'] ↔ '\x5c' ∈ s.toList ∧ caps.standardConformingStrings = false ∧
        caps.extendedEscapes = true) := by
  have content := Literal.literalContent_escaped caps.standardConformingStrings s.toList
  have scanned := Lexeme.scan_literal (Literal.isOrdinary_of_mark caps s.toList)
    (by rwa [Literal.escapes_of_mark caps s.toList])
  rw [Literal.escapes_of_mark] at scanned
  have written := literal_of_value held caps
  rw [Literal.ofText_of_noZero noZero] at written
  have marked : Literal.markOf caps s.toList = ['E'] ↔
      '\x5c' ∈ s.toList ∧ caps.standardConformingStrings = false ∧ caps.extendedEscapes = true := by
    simp [Literal.markOf]
  refine ⟨_, _, _, written, ?_, scanned, content, ?_, ?_, marked⟩
  · rw [split, scanned, Except.map, Fragments.ofLexemes_plain]
    simp [Fragments.ofLexemes, Fragments.prepend, Fragments.empty, Lexeme.kept, Lexeme.text]
  · constructor
    · intro on
      exact .inl (by simpa using on)
    · intro either
      rcases either with legacy | isMarked
      · simpa using legacy
      · simpa using (marked.1 isMarked).2.1
  · unfold Literal.markOf
    split
    · exact .inr rfl
    · exact .inl rfl

def Capabilities.legacy : Capabilities := ⟨false, true, []⟩

theorem ParameterList.literal_reads_back_legacy :
    ParameterList.value [Parameter.unbound.bind (.text "it's a\\") Oid.text] 1 = .ok (some (.text "it's a\\")) ∧
    '\x00' ∉ "it's a\\".toList ∧
    ∃ tail, ParameterList.literal [Parameter.unbound.bind (.text "it's a\\") Oid.text] 1 .legacy =
        .ok ('E' :: '\x27' :: tail) ∧
      split false ('E' :: '\x27' :: tail) = .ok ⟨'E' :: '\x27' :: tail, []⟩ ∧
      Lexeme.literalContent true tail = some "it's a\\".toList := by
  have held : ParameterList.value [Parameter.unbound.bind (.text "it's a\\") Oid.text] 1 =
      .ok (some (.text "it's a\\")) := rfl
  have noZero : '\x00' ∉ "it's a\\".toList := by decide
  obtain ⟨mark, tail, escapes, written, divided, -, content, active, -, marked⟩ :=
    literal_reads_back held noZero .legacy
  obtain rfl := marked.2 (by decide)
  obtain rfl := active.2 (.inr rfl)
  exact ⟨held, noZero, tail, written, divided, content⟩

end ExtendedQuery
