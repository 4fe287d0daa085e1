import ExtendedQuery.Sql.Fragments
import ExtendedQuery.Text.Keyword

/-!
# Inserts of several rows

An insert of one row, `INSERT .. VALUES (?, ..)` with nothing but placeholders in its group and nothing
after it, takes more rows by more groups: with the fragments of the statement (`Fragments.grow`), or
with its native text (`growText`), in which the placeholders go on counting row by row.
-/

namespace ExtendedQuery.Sql

def opensValues (text : Text) : Bool :=
  let head := Text.trimStart text
  Text.startsWithKeyword "insert".toList head &&
    match (Text.trimEnd head).reverse with
    | '(' :: before => Text.endsWithKeyword "values".toList (Text.trimEnd before.reverse)
    | _ => false

def closesValues : List Text → Bool
  | [] => false
  | [last] => Text.trim last == [')']
  | separator :: later => Text.trim separator == [','] && closesValues later

namespace Fragments

def isGrowable (fragments : Fragments) : Bool :=
  opensValues fragments.first && closesValues fragments.later

def rowFragments (arity : Nat) (last : Text) : List Text :=
  List.replicate (arity - 1) [','] ++ [last]

/-- The insert of `rows` rows. The last fragment of each row but the last one also opens the group of
the next row. -/
def grow (fragments : Fragments) (rows : Nat) : Fragments :=
  match rows, fragments.later.getLast? with
  | rows + 2, some last =>
    let arity := fragments.placeholderCount
    let between := (List.replicate rows (rowFragments arity [')', ',', '('])).flatten
    ⟨fragments.first,
      fragments.later.dropLast ++ [last ++ [',', '(']] ++ between ++ rowFragments arity [')']⟩
  | _, _ => fragments

end Fragments

def rowGroup (arity first : Nat) : Text :=
  ",(".toList ++
    [','].intercalate ((List.range' first arity).map Fragments.placeholder) ++ [')']

def growText (native : Text) (arity rows : Nat) : Text :=
  native ++ (List.range' 1 (rows - 1)).flatMap fun row => rowGroup arity (row * arity + 1)

end ExtendedQuery.Sql
