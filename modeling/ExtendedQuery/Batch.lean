import ExtendedQuery.Execute

/-!
# Batches

Rows of parameters are queued for one query and executed together. A batched insert takes as many rows at
once as it can grow to; any other query is executed for each row.
-/

namespace ExtendedQuery

inductive RowOutcome where
  | affected (rows : Nat)
  | merged
  deriving DecidableEq, Repr

structure Batch where
  query : Query
  rows : List Parameters
  deriving DecidableEq, Repr

namespace Batch

def new (query : Query) : Batch := ⟨query, []⟩

def add (batch : Batch) (row : Parameters) : Except Error Batch := do
  row.checkAllSet.mapError .bind
  match batch.query, row with
  | .batched s, .single list =>
    if list.length ≠ s.arity then throw (.growth (.arityMismatch s.arity list.length))
  | .batched _, .composite _ => throw (.bind .incompatible)
  | _, _ => pure ()
  return { batch with rows := batch.rows ++ [row] }

def flush (s : BatchedStatement) (c : Connection) :
    Except Error (List RowOutcome) × BatchedStatement × Connection :=
  match s.pending with
  | none => (.ok [], s.reset, c)
  | some queued =>
    let (outcome, b, c) := exchangeOne { s with pending := none } queued c
    let outcome := outcome.map fun affected =>
      if s.rows = 1 then [.affected (totalAffected affected)] else List.replicate s.rows .merged
    (outcome, b.statement.reset, c)

def mergeRow (s : BatchedStatement) (row : Parameters) (c : Connection) :
    Except Error (List RowOutcome) × BatchedStatement × Connection :=
  match row with
  | .composite _ => (.error (.bind .incompatible), s, c)
  | .single list =>
    match s.addRow list with
    | .ok s => (.ok [], s, c)
    | .error (.full _) =>
      match flush s c with
      | (.error e, s, c) => (.error e, s, c)
      | (.ok outcomes, s, c) =>
        match s.addRow list with
        | .ok s => (.ok outcomes, s, c)
        | .error e => (.error (.growth e), s, c)
    | .error e => (.error (.growth e), s, c)

def mergeRows (done : List RowOutcome) : (s : BatchedStatement) → List Parameters → Connection →
    Except Error (List RowOutcome) × BatchedStatement × Connection
  | s, [], c =>
    let (outcome, s, c) := flush s c
    (outcome.map (done ++ ·), s, c)
  | s, row :: later, c =>
    match mergeRow s row c with
    | (.error e, s, c) => (.error e, s, c)
    | (.ok outcomes, s, c) => mergeRows (done ++ outcomes) s later c

def executeRows (done : List RowOutcome) : (query : Query) → List Parameters → Connection →
    Except Error (List RowOutcome) × Query × Connection
  | query, [], c => (.ok done, query, c)
  | query, row :: later, c =>
    let execution := query.execute row c
    match execution.outcome with
    | .error e => (.error e, execution.query, execution.connection)
    | .ok affected =>
      executeRows (done ++ [.affected (totalAffected affected)]) execution.query later execution.connection

/-- Executes the queued rows, and returns the outcome of each. The rows are taken even after an error,
and a batched insert always returns to a single row. -/
def execute (batch : Batch) (c : Connection) :
    Except Error (List RowOutcome) × Batch × Connection :=
  match batch.query with
  | .batched s =>
    let (outcome, s, c) := mergeRows [] s batch.rows c
    (outcome, new (.batched s.reset), c)
  | query =>
    let (outcome, query, c) := executeRows [] query batch.rows c
    (outcome, new query, c)

end Batch

end ExtendedQuery
