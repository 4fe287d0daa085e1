import ExtendedQuery.Text.Basic

/-!
# Keywords

A keyword of SQL is recognised in either case, and only where it is not part of a longer identifier.
-/

namespace ExtendedQuery.Text

/-- ASCII letters and digits, `_`, `$` and every character outside ASCII continue an identifier. -/
def isIdentifierChar (c : Char) : Bool :=
  c.isAlphanum || c == '_' || c == '$' || 0x80 ≤ c.toNat

def startsWithKeyword (keyword text : Text) : Bool :=
  foldCase (text.take keyword.length) == keyword &&
    !(text.drop keyword.length).head?.any isIdentifierChar

def endsWithKeyword (keyword text : Text) : Bool :=
  let backwards := text.reverse
  foldCase (backwards.take keyword.length) == keyword.reverse &&
    !(backwards.drop keyword.length).head?.any isIdentifierChar

end ExtendedQuery.Text
