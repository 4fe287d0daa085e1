import ExtendedQuery.Decimal.Basic
import ExtendedQuery.Sql.Lexeme
import ExtendedQuery.Text.Blank

/-!
# Statements as fragments

A statement is the text between its placeholders, so there is one fragment more than there are
placeholders. Reading SQL text divides its lexemes at every mark `?`, and at every top level `;` where
several statements are allowed; an escaped mark leaves a single `?` in the fragment, and every other
lexeme is kept as it is. The server is sent the native text, where the placeholders are numbered `$1`,
`$2` and so on.
-/

namespace ExtendedQuery.Sql

/-- The fragment before the first placeholder, and the one after each placeholder. -/
structure Fragments where
  first : Text
  later : List Text
  deriving DecidableEq, Repr

def Lexeme.kept : Lexeme → Text
  | .escapedMark => ['?']
  | lexeme => lexeme.text

namespace Fragments

def empty : Fragments := ⟨[], []⟩

def parts (fragments : Fragments) : List Text := fragments.first :: fragments.later

def placeholderCount (fragments : Fragments) : Nat := fragments.later.length

/-- Text before a statement belongs to its first fragment, and a mark ends a fragment. -/
def prepend (lexeme : Lexeme) (fragments : Fragments) : Fragments :=
  match lexeme with
  | .mark => ⟨[], fragments.parts⟩
  | lexeme => ⟨lexeme.kept ++ fragments.first, fragments.later⟩

def ofLexemes (lexemes : List Lexeme) : Fragments := lexemes.foldr prepend empty

def statementsOfLexemes (lexemes : List Lexeme) : List Fragments :=
  (lexemes.splitOn (.plain ';')).map ofLexemes

def isBlank (fragments : Fragments) : Bool :=
  fragments.later.isEmpty && Text.isAllBlank fragments.first

def placeholder (n : Nat) : Text := '$' :: Decimal.digits n

def numbered (n : Nat) (later : List Text) : Text :=
  (later.zipIdx n).flatMap fun (part, number) => placeholder number ++ part

def native (fragments : Fragments) : Text := fragments.first ++ numbered 1 fragments.later

end Fragments

def split (standard : Bool) (text : Text) : Except Unterminated Fragments :=
  (Lexeme.scan standard text).map Fragments.ofLexemes

/-- The statements of the text without the blank ones, or the empty one if no other is left. -/
def splitStatements (standard : Bool) (text : Text) : Except Unterminated (List Fragments) :=
  (Lexeme.scan standard text).map fun lexemes =>
    match (Fragments.statementsOfLexemes lexemes).filter (!·.isBlank) with
    | [] => [Fragments.empty]
    | statements => statements

end ExtendedQuery.Sql
