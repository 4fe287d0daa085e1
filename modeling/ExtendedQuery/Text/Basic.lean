/-!
# Text as characters

SQL text, option text and names are examined as lists of characters. Positions in messages count the
bytes of the UTF-8 form, so a list of characters also has a length in bytes.
-/

namespace ExtendedQuery

abbrev Text := List Char

namespace Text

def byteLength : Text → Nat
  | [] => 0
  | c :: text => c.utf8Size + byteLength text

@[simp] theorem byteLength_nil : byteLength [] = 0 := rfl

@[simp] theorem byteLength_cons (c : Char) (text : Text) :
    byteLength (c :: text) = c.utf8Size + byteLength text := rfl

@[simp] theorem byteLength_append (a b : Text) :
    byteLength (a ++ b) = byteLength a + byteLength b := by
  induction a with
  | nil => simp
  | cons c a ih => simp [ih, Nat.add_assoc]

def foldCase (text : Text) : Text := text.map Char.toLower

end Text

end ExtendedQuery
