import ExtendedQuery.Proofs.Sql.Growth
import ExtendedQuery.Proofs.Sql.Statements

/-!
# Characters that are carried through

Reading a text looks at few characters, and few others are written into the native text. Any other character
that is not blank is `Inert`: it stands in the text exactly if it stands in the native text of one of the
statements (`mem_text_iff`).
-/

namespace ExtendedQuery.Sql

open Text

structure Inert (a : Char) : Prop where
  mark : a ≠ '?'
  semicolon : a ≠ ';'
  group : a ∉ [',', '(', ')']
  dollar : a ≠ '$'
  digit : a.isDigit = false
  blank : isBlank a = false

theorem inert_zero : Inert '\x00' := by
  constructor <;> decide

namespace Lexeme

theorem scanAfter_text {standard : Bool} {before rest : Text} {done lexemes : List Lexeme}
    (h : scanAfter standard before done rest = .ok lexemes) :
    ∃ later, lexemes = done.reverse ++ later ∧ later.flatMap text = rest := by
  fun_induction scanAfter standard before done rest with
  | case1 before done =>
    cases h
    exact ⟨[], by simp⟩
  | case2 => cases h
  | case3 before done c rest lexeme later read ih =>
    obtain ⟨others, rfl, whole⟩ := ih h
    obtain ⟨taken, first, rfl⟩ := read_append read
    exact ⟨lexeme :: others, by simp, by rw [List.flatMap_cons, first, whole, List.cons_append]⟩

theorem scan_text {standard : Bool} {text : Text} {lexemes : List Lexeme} (h : scan standard text = .ok lexemes) :
    lexemes.flatMap Lexeme.text = text := by
  obtain ⟨later, rfl, whole⟩ := scanAfter_text h
  exact whole

theorem mem_kept {a : Char} (lexeme : Lexeme) : a ∈ lexeme.kept ↔ a ∈ lexeme.text := by
  cases lexeme with
  | escapedMark => simp [kept, text]
  | _ => rfl

end Lexeme

variable {a : Char}

namespace Fragments

theorem mem_prepend (inert : Inert a) (lexeme : Lexeme) (fragments : Fragments) :
    a ∈ (fragments.prepend lexeme).parts.flatten ↔ a ∈ lexeme.text ∨ a ∈ fragments.parts.flatten := by
  by_cases mark : lexeme = .mark
  · subst mark
    simp [prepend, parts, Lexeme.text, inert.mark]
  · have other : fragments.prepend lexeme = ⟨lexeme.kept ++ fragments.first, fragments.later⟩ := by
      cases lexeme <;> first | rfl | exact absurd rfl mark
    rw [other, ← Lexeme.mem_kept]
    simp [parts]

theorem mem_ofLexemes (inert : Inert a) (lexemes : List Lexeme) :
    a ∈ (ofLexemes lexemes).parts.flatten ↔ a ∈ lexemes.flatMap Lexeme.text := by
  induction lexemes with
  | nil => simp [ofLexemes, parts, empty]
  | cons lexeme later ih =>
    change a ∈ ((ofLexemes later).prepend lexeme).parts.flatten ↔ _
    rw [mem_prepend inert, ih, List.flatMap_cons, List.mem_append]

theorem not_mem_placeholder (inert : Inert a) (n : Nat) : a ∉ placeholder n := by
  intro member
  rcases List.mem_cons.1 member with dollar | digit
  · exact inert.dollar dollar
  · have isDigit := Decimal.isDigit_of_mem_digits digit
    rw [inert.digit] at isDigit
    cases isDigit

theorem mem_numbered (inert : Inert a) (n : Nat) (later : List Text) :
    a ∈ numbered n later ↔ a ∈ later.flatten := by
  induction later generalizing n with
  | nil => simp
  | cons part later ih =>
    rw [numbered_cons, List.mem_append, List.mem_append, ih, List.flatten_cons, List.mem_append]
    simp [not_mem_placeholder inert n]

theorem mem_native (inert : Inert a) (fragments : Fragments) :
    a ∈ fragments.native ↔ a ∈ fragments.parts.flatten := by
  rw [native, List.mem_append, mem_numbered inert, parts, List.flatten_cons, List.mem_append]

theorem mem_intercalate (inert : Inert a) (runs : List (List Lexeme)) :
    a ∈ ([.plain ';'].intercalate runs).flatMap Lexeme.text ↔ ∃ run ∈ runs, a ∈ run.flatMap Lexeme.text := by
  induction runs with
  | nil => simp
  | cons run runs ih =>
    cases runs with
    | nil => simp
    | cons second runs =>
      rw [List.intercalate_cons_cons, List.append_assoc, List.flatMap_append, List.mem_append, List.singleton_append,
        List.flatMap_cons, List.mem_append, ih]
      simp [Lexeme.text, inert.semicolon]

theorem mem_statementsOfLexemes (inert : Inert a) (lexemes : List Lexeme) :
    (∃ fragments ∈ statementsOfLexemes lexemes, a ∈ fragments.native) ↔ a ∈ lexemes.flatMap Lexeme.text := by
  have runs : [Lexeme.plain ';'].intercalate (lexemes.splitOn (.plain ';')) = lexemes := List.intercalate_splitOn _
  nth_rewrite 2 [← runs]
  simp only [mem_intercalate inert, statementsOfLexemes, List.mem_map, exists_exists_and_eq_and, mem_native inert,
    mem_ofLexemes inert]

theorem not_mem_of_isBlank (inert : Inert a) {fragments : Fragments} (blank : fragments.isBlank = true) :
    a ∉ fragments.native := by
  rw [isBlank, Bool.and_eq_true, List.isEmpty_iff] at blank
  rw [mem_native inert, parts, blank.1]
  intro member
  have all := List.all_eq_true.1 blank.2 a (by simpa using member)
  rw [inert.blank] at all
  cases all

theorem mem_nonBlank (inert : Inert a) (all : List Fragments) :
    (∃ fragments ∈ all, a ∈ fragments.native) ↔ ∃ fragments ∈ nonBlank all, a ∈ fragments.native := by
  constructor
  · rintro ⟨fragments, member, inside⟩
    have full : fragments.isBlank = false := by
      rw [← Bool.not_eq_true]
      intro blank
      exact not_mem_of_isBlank inert blank inside
    rw [nonBlank_of_mem member full]
    exact ⟨fragments, List.mem_filter.2 ⟨member, by rw [full]; rfl⟩, inside⟩
  · rintro ⟨fragments, member, inside⟩
    unfold nonBlank at member
    split at member
    · cases List.mem_singleton.1 member
      cases inside
    · exact ⟨fragments, (List.mem_filter.1 member).1, inside⟩

end Fragments

theorem mem_text_iff (inert : Inert a) {standard : Bool} {text : Text} {all : List Fragments}
    (done : splitStatements standard text = .ok all) :
    a ∈ text ↔ ∃ fragments ∈ all, a ∈ fragments.native := by
  unfold splitStatements at done
  cases scanned : Lexeme.scan standard text with
  | error e =>
    rw [scanned] at done
    cases done
  | ok lexemes =>
    rw [scanned] at done
    cases done
    rw [← Lexeme.scan_text scanned, ← Fragments.mem_statementsOfLexemes inert]
    exact Fragments.mem_nonBlank inert _

theorem not_mem_rowGroup (inert : Inert a) (arity first : Nat) : a ∉ rowGroup arity first := by
  have comma : a ≠ ',' := fun same => inert.group (by simp [same])
  have opening : a ≠ '(' := fun same => inert.group (by simp [same])
  have closing : a ≠ ')' := fun same => inert.group (by simp [same])
  have inner (columns : List Nat) : a ∉ [','].intercalate (columns.map Fragments.placeholder) := by
    induction columns with
    | nil => simp
    | cons n columns ih =>
      cases columns with
      | nil => simpa using Fragments.not_mem_placeholder inert n
      | cons m columns =>
        rw [List.map_cons] at ih ⊢
        rw [List.map_cons, List.intercalate_cons_cons]
        simp [Fragments.not_mem_placeholder inert n, comma, ih]
  simp [rowGroup, comma, opening, closing, inner]

theorem mem_native_grow (inert : Inert a) {fragments : Fragments} (marks : fragments.later ≠ []) {rows : Nat}
    (positive : 0 < rows) : a ∈ (fragments.grow rows).native ↔ a ∈ fragments.native := by
  rw [Fragments.native_grow marks positive, growText, List.mem_append]
  simp [not_mem_rowGroup inert]

end ExtendedQuery.Sql
