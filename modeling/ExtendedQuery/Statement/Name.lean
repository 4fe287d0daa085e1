import ExtendedQuery.Decimal.Basic
import ExtendedQuery.Text.Quoted

/-!
# Statement names

A statement that the server keeps has a name, made from a number that is used once; the server replaces
the unnamed statement at every parse. The statement that an insert grows into has a name of its own for
every number of rows.
-/

namespace ExtendedQuery

structure StatementName where
  text : String
  deriving DecidableEq, Repr

namespace StatementName

def unnamed : StatementName := ⟨""⟩

def isUnnamed (name : StatementName) : Bool := name.text.isEmpty

def numbered (n : Nat) : StatementName := ⟨String.ofList ('q' :: Decimal.padded 5 n)⟩

def ofRows (name : StatementName) (rows : Nat) : StatementName :=
  if name.isUnnamed ∨ rows ≤ 1 then name
  else ⟨name.text ++ String.ofList ('_' :: Decimal.digits rows)⟩

def shown (name : StatementName) : Text :=
  "StatementName(".toList ++ Text.quoted name.text.toList ++ [')']

end StatementName

structure NameSupply where
  next : Nat
  deriving DecidableEq, Repr

namespace NameSupply

def fresh : NameSupply := ⟨0⟩

def take (names : NameSupply) (kept : Bool) : StatementName × NameSupply :=
  if kept then (.numbered names.next, ⟨names.next + 1⟩) else (.unnamed, names)

def takeFor {α β : Type} (make : α → StatementName → β) (kept : Bool) :
    (names : NameSupply) → List α → List β × NameSupply
  | names, [] => ([], names)
  | names, a :: as =>
    let (name, names) := names.take kept
    let (bs, names) := takeFor make kept names as
    (make a name :: bs, names)

end NameSupply

end ExtendedQuery
