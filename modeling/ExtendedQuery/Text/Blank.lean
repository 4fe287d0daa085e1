import ExtendedQuery.Text.Basic

/-!
# Blank characters

The blanks are the characters with the Unicode property White_Space. Trimming removes them at the
ends of a text, and the words of a text are its longest runs without them.
-/

namespace ExtendedQuery.Text

def blankRanges : List (Nat × Nat) :=
  [(0x9, 0xD), (0x20, 0x20), (0x85, 0x85), (0xA0, 0xA0), (0x1680, 0x1680), (0x2000, 0x200A),
   (0x2028, 0x2029), (0x202F, 0x202F), (0x205F, 0x205F), (0x3000, 0x3000)]

def isBlank (c : Char) : Bool :=
  blankRanges.any fun range => range.1 ≤ c.toNat && c.toNat ≤ range.2

def trimStart (text : Text) : Text := text.dropWhile isBlank

def trimEnd (text : Text) : Text := (text.reverse.dropWhile isBlank).reverse

def trim (text : Text) : Text := trimEnd (trimStart text)

def isAllBlank (text : Text) : Bool := text.all isBlank

def words (text : Text) : List Text := (text.splitOnP isBlank).filter (· ≠ [])

end ExtendedQuery.Text
