import ExtendedQuery.Statement.Batched

/-!
# Inserts with their texts

An insert keeps the text, the fragments and the name of its present shape beside the ones of a single row, and writes
them anew when it takes another number of rows. It also keeps whether all types of a row are known, so that reports
need not be looked at any more. Its operations change it in place, those that end in an error too.
-/

namespace ExtendedQuery

structure StoredStatement extends Statement where
  text : Text
  deriving DecidableEq, Repr

def Statement.stored (s : Statement) : StoredStatement := { s with text := s.fragments.native }

namespace StoredStatement

/-- Takes another text. What the server knows of the statement is forgotten. -/
def replaceShape (fragments : Sql.Fragments) (text : Text) (name : StatementName) (types : List Oid)
    (s : StoredStatement) : StoredStatement :=
  { s with fragments := fragments, text := text, name := name, types := types, prepared := none, described := false }

def setTypes (types : List Oid) (s : StoredStatement) : StoredStatement :=
  { s with toStatement := s.toStatement.setTypes types }

def setFields (fields : List Field) (s : StoredStatement) : StoredStatement :=
  { s with toStatement := s.toStatement.setFields fields }

end StoredStatement

structure StoredInsert where
  statement : StoredStatement
  original : Sql.Fragments
  baseText : Text
  baseName : StatementName
  arity : Nat
  template : List Oid
  resolved : Bool
  rows : Nat
  maxRows : Nat
  shapes : Shapes
  pending : Option ParameterList
  deriving DecidableEq, Repr

namespace StoredInsert

def ofStatement (s : StoredStatement) (maxRows : Nat) : StoredInsert :=
  ⟨s, s.fragments, s.text, s.name, s.fragments.placeholderCount, s.types, false, 1, max maxRows 1, [], none⟩

def new (s : StoredStatement) (maxRows : Nat) : Except GrowthError StoredInsert :=
  if s.fragments.isGrowable then .ok (ofStatement s maxRows) else .error .notGrowable

def applyShape (rows : Nat) (s : StoredInsert) : StoredInsert :=
  let (fragments, text) :=
    if rows = 1 then (s.original, s.baseText)
    else (s.original.grow rows, Sql.growText s.baseText s.arity rows)
  let types := (List.replicate rows s.template).flatten
  { s with statement := s.statement.replaceShape fragments text (s.baseName.ofRows rows) types, rows := rows }

def queueRow (s : StoredInsert) : Except GrowthError Unit × StoredInsert :=
  let rows := s.rows + 1
  if maxParameters < rows * s.arity ∨ s.maxRows < rows then (.error (.full s.rows), s) else (.ok (), s.applyShape rows)

def addRow (row : ParameterList) (s : StoredInsert) : Except GrowthError Unit × StoredInsert :=
  if row.length ≠ s.arity then (.error (.arityMismatch s.arity row.length), s)
  else if s.pending.isNone then (.ok (), { s with pending := some row })
  else
    match s.queueRow with
    | (.error e, s) => (.error e, s)
    | (.ok (), s) => (.ok (), { s with pending := s.pending.map (· ++ row) })

def reset (s : StoredInsert) : StoredInsert :=
  let s := { s with pending := none }
  if s.rows ≠ 1 then s.applyShape 1 else s

def markParsed (rows : Nat) (types : List Oid) (s : StoredInsert) : StoredInsert :=
  if s.baseName.isUnnamed then s
  else { s with shapes := s.shapes.update rows fun shape => { shape with prepared := some types } }

def markDescribed (rows : Nat) (s : StoredInsert) : StoredInsert :=
  if s.baseName.isUnnamed then s
  else { s with shapes := s.shapes.update rows fun shape => { shape with described := true } }

def setPrepared (types : Option (List Oid)) (s : StoredInsert) : StoredInsert :=
  match types with
  | some types => s.markParsed s.rows types
  | none => { s with shapes := s.shapes.erase s.rows }

/-- A template that is resolved is not looked at again. -/
def foldTemplate (types : List Oid) (s : StoredInsert) : StoredInsert :=
  if s.resolved ∨ s.arity = 0 then s
  else
    let template := BatchedStatement.foldTemplate s.arity s.template types
    { s with template := template, resolved := template.all (· ≠ Oid.unspecified) }

def setTypes (types : List Oid) (s : StoredInsert) : StoredInsert :=
  let s := { s with shapes := s.shapes.report s.rows types }
  let s := s.foldTemplate types
  { s with statement := s.statement.setTypes types }

def setFields (fields : List Field) (s : StoredInsert) : StoredInsert :=
  let s := { s with statement := s.statement.setFields fields }
  s.markDescribed s.rows

def close (s : StoredInsert) : StoredInsert × List StatementName :=
  ({ s with shapes := [] }, s.shapes.parsedRows.map s.baseName.ofRows)

end StoredInsert

end ExtendedQuery
