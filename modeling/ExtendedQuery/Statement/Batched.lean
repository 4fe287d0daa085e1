import ExtendedQuery.Sql.Insert
import ExtendedQuery.Statement.Single

/-!
# Batched inserts

An insert of one row takes queued rows and grows with them. Every number of rows makes a statement of
its own at the server, the shape of that number, with its own name and state; what the server reports of
one shape also tells the types of a single row, which form a template for all shapes.
-/

namespace ExtendedQuery

inductive GrowthError where
  | arityMismatch (expected found : Nat)
  | full (rows : Nat)
  | notGrowable
  deriving DecidableEq, Repr

namespace GrowthError

def message : GrowthError → String
  | .arityMismatch expected found =>
    "row have " ++ toString found ++ " parameters, statement expect " ++ toString expected
  | .full rows => "batch of " ++ toString rows ++ " rows cannot grow further"
  | .notGrowable => "statement is not a rewritable insert"

end GrowthError

structure Shape where
  prepared : Option (List Oid)
  described : Bool
  deriving DecidableEq, Repr

def Shape.unknown : Shape := ⟨none, false⟩

abbrev Shapes := List (Nat × Shape)

namespace Shapes

def at? (shapes : Shapes) (rows : Nat) : Option Shape := shapes.lookup rows

def update (rows : Nat) (change : Shape → Shape) : Shapes → Shapes
  | [] => [(rows, change .unknown)]
  | entry :: later =>
    if rows = entry.1 then (rows, change entry.2) :: later
    else if rows < entry.1 then (rows, change .unknown) :: entry :: later
    else entry :: update rows change later

def erase (shapes : Shapes) (rows : Nat) : Shapes := shapes.filter (·.1 != rows)

def report (rows : Nat) (types : List Oid) (shapes : Shapes) : Shapes :=
  shapes.map fun (r, shape) =>
    if r = rows then (r, { shape with prepared := shape.prepared.map (Oid.fill · types) }) else (r, shape)

def parsedRows (shapes : Shapes) : List Nat :=
  (shapes.filter (·.2.prepared.isSome)).map (·.1)

end Shapes

structure BatchedStatement where
  base : Sql.Fragments
  baseName : StatementName
  template : List Oid
  maxRows : Nat
  rows : Nat
  types : List Oid
  fields : List Field
  shapes : Shapes
  pending : Option ParameterList
  deriving DecidableEq, Repr

namespace BatchedStatement

def ofStatement (s : Statement) (maxRows : Nat) : BatchedStatement :=
  ⟨s.fragments, s.name, s.types, max maxRows 1, 1, s.types, s.fields, [], none⟩

def new (s : Statement) (maxRows : Nat) : Except GrowthError BatchedStatement :=
  if s.fragments.isGrowable then .ok (ofStatement s maxRows) else .error .notGrowable

def arity (s : BatchedStatement) : Nat := s.base.placeholderCount

def fragments (s : BatchedStatement) : Sql.Fragments := s.base.grow s.rows

def sql (s : BatchedStatement) : Text := Sql.growText s.base.native s.arity s.rows

def name (s : BatchedStatement) : StatementName := s.baseName.ofRows s.rows

def shape (s : BatchedStatement) : Shape := (s.shapes.at? s.rows).getD .unknown

def prepared (s : BatchedStatement) : Option (List Oid) := s.shape.prepared

def isDescribed (s : BatchedStatement) : Bool := s.shape.described

def createParameters (s : BatchedStatement) : ParameterList := .ofCount s.arity

def reshape (s : BatchedStatement) (rows : Nat) : BatchedStatement :=
  { s with rows := rows, types := (List.replicate rows s.template).flatten }

def queueRow (s : BatchedStatement) : Except GrowthError BatchedStatement :=
  if maxParameters < (s.rows + 1) * s.arity ∨ s.maxRows < s.rows + 1 then .error (.full s.rows)
  else .ok (s.reshape (s.rows + 1))

/-- Queues a row of parameters. The first row is the one that the statement has already. -/
def addRow (s : BatchedStatement) (row : ParameterList) : Except GrowthError BatchedStatement :=
  if row.length ≠ s.arity then .error (.arityMismatch s.arity row.length)
  else
    match s.pending with
    | none => .ok { s with pending := some row }
    | some queued => do
      let s ← s.queueRow
      return { s with pending := some (queued ++ row) }

def reset (s : BatchedStatement) : BatchedStatement :=
  let s := { s with pending := none }
  if s.rows = 1 then s else s.reshape 1

/-- Records the types with which the shape of so many rows was parsed. Nothing is recorded of the unnamed
statement. -/
def markParsed (rows : Nat) (types : List Oid) (s : BatchedStatement) : BatchedStatement :=
  if s.baseName.isUnnamed then s
  else { s with shapes := s.shapes.update rows fun shape => { shape with prepared := some types } }

def markDescribed (rows : Nat) (s : BatchedStatement) : BatchedStatement :=
  if s.baseName.isUnnamed then s
  else { s with shapes := s.shapes.update rows fun shape => { shape with described := true } }

def setPrepared (types : Option (List Oid)) (s : BatchedStatement) : BatchedStatement :=
  match types with
  | some types => s.markParsed s.rows types
  | none => { s with shapes := s.shapes.erase s.rows }

def foldTemplate (arity : Nat) (template : List Oid) : (reported : List Oid) → List Oid
  | [] => template
  | oid :: later =>
    if _some : arity = 0 then template
    else
      foldTemplate arity (Oid.fill template ((oid :: later).take arity)) ((oid :: later).drop arity)
termination_by reported => reported.length
decreasing_by simp only [List.length_drop, List.length_cons]; omega

def setTypes (types : List Oid) (s : BatchedStatement) : BatchedStatement :=
  { s with
    shapes := s.shapes.report s.rows types
    template := foldTemplate s.arity s.template types
    types := types }

def setFields (fields : List Field) (s : BatchedStatement) : BatchedStatement :=
  { s with fields := fields }.markDescribed s.rows

def close (s : BatchedStatement) : BatchedStatement × List StatementName :=
  ({ s with shapes := [] }, s.shapes.parsedRows.map s.baseName.ofRows)

instance : Descriptor BatchedStatement where
  fragments := fragments
  sql := sql
  name := name
  types := types
  fields := fields
  prepared := prepared
  isDescribed := isDescribed
  setPrepared := setPrepared
  setTypes := setTypes
  setFields := setFields

end BatchedStatement

end ExtendedQuery
