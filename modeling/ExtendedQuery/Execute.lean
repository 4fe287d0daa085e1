import ExtendedQuery.Pipeline.Replies

/-!
# Execution

A query is executed with its parameters in one exchange with the server. Nothing is sent unless all of
its statements can be planned; afterwards the statements and the parameters hold what the server has
reported, whether the exchange succeeded or not.
-/

namespace ExtendedQuery

open Wire

def exchange {σ : Type} [Descriptor σ] (bindings : List (Binding σ)) (c : Connection) :
    Except Error (List Nat) × List (Binding σ) × Connection :=
  match bindings.mapM Binding.plan with
  | .error e => (.error (.bind e), bindings, c)
  | .ok plans =>
    let planned := bindings.zip plans
    match (pipelineMessages? planned).bind (FrontendMessage.writeAll? · []) with
    | none => (.error .oversized, bindings, c)
    | some bytes =>
      match c.send bytes with
      | .error e => (.error (.transport e), bindings, c)
      | .ok c =>
        let (outcome, bindings, c) := awaitAll planned c
        let (outcome, c) := c.resynchronise outcome
        (outcome, bindings, c)

def exchangeOne {σ : Type} [Descriptor σ] (statement : σ) (parameters : ParameterList)
    (c : Connection) : Except Error (List Nat) × Binding σ × Connection :=
  let (outcome, bindings, c) := exchange [⟨statement, parameters⟩] c
  (outcome, bindings.headD ⟨statement, parameters⟩, c)

structure Execution where
  outcome : Except Error (List Nat)
  query : Query
  parameters : Parameters
  connection : Connection

def totalAffected (affected : List Nat) : Nat := affected.foldr (· + ·) 0

/-- Executes a query. A batched insert is executed for a single row, its queued rows are dropped. -/
def Query.execute (query : Query) (parameters : Parameters) (c : Connection) : Execution :=
  match query, parameters with
  | .single s, .single list =>
    let (outcome, b, c) := exchangeOne s list c
    ⟨outcome, .single b.statement, .single b.parameters, c⟩
  | .batched s, .single list =>
    if list.length ≠ s.arity then
      ⟨.error (.bind (.indexOutOfRange list.length s.arity)), query, parameters, c⟩
    else
      let (outcome, b, c) := exchangeOne s.reset list c
      ⟨outcome, .batched b.statement, .single b.parameters, c⟩
  | .composite statements, .composite lists =>
    if statements.length ≠ lists.length then
      ⟨.error (.bind .incompatible), query, parameters, c⟩
    else
      let (outcome, bindings, c) := exchange (List.zipWith Binding.mk statements lists) c
      ⟨outcome, .composite (bindings.map (·.statement)), .composite (bindings.map (·.parameters)), c⟩
  | _, _ => ⟨.error (.bind .incompatible), query, parameters, c⟩

def Connection.awaitClosed : (count : Nat) → Connection → Except Error Unit × Connection
  | 0, c => c.awaitReady
  | count + 1, c =>
    match c.receiveReply with
    | (.error e, c) => (.error e, c)
    | (.ok .closeComplete, c) => awaitClosed count c
    | (.ok reply, c) => (.error (.protocol (reply.unexpectedIn .close)), c)

/-- Closes the statements with these names at the server. The unnamed statement needs no closing. -/
def Connection.closeStatements (names : List StatementName) (c : Connection) :
    Except Error Unit × Connection :=
  match names.filter (!·.isUnnamed) with
  | [] => (.ok (), c)
  | names =>
    let messages := names.map fun name => FrontendMessage.close statementTarget name.text
    match FrontendMessage.writeAll? (messages ++ [.sync]) [] with
    | none => (.error .oversized, c)
    | some bytes =>
      match c.send bytes with
      | .error e => (.error (.transport e), c)
      | .ok c =>
        let (outcome, c) := c.awaitClosed names.length
        c.resynchronise outcome

end ExtendedQuery
