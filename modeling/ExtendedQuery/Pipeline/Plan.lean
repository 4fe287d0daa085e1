import ExtendedQuery.Error
import ExtendedQuery.Wire.Frontend

/-!
# Planning a pipeline

The statements of a query are executed by one pipeline, all of whose messages are sent at once. For each
statement it closes what the server has under the name if that cannot be used, parses the statement if
the server does not have it, describes it if that was not done, binds the parameters and executes it; a
synchronisation comes last. Before anything is written, every statement is planned, and its parameters
have to be complete.
-/

namespace ExtendedQuery

open Wire

structure Binding (σ : Type) where
  statement : σ
  parameters : ParameterList
  deriving DecidableEq, Repr

structure Plan where
  close : Bool
  parse : Bool
  describe : Bool
  types : List Oid
  formats : List Format
  values : List (Option Bytes)
  deriving DecidableEq, Repr

namespace Binding

variable {σ : Type} [Descriptor σ]

def types (b : Binding σ) : List Oid :=
  List.zipWith Oid.orElse b.parameters.oids (Descriptor.types b.statement)

/-- Refuses parameters that are too many, that are not as many as the placeholders or that are not all
bound. Closing a statement also forgets its description. -/
def plan (b : Binding σ) : Except BindError Plan := do
  let count := (Descriptor.fragments b.statement).placeholderCount
  if maxParameters < count then throw (.tooManyParameters count)
  if b.parameters.length ≠ count then throw (.indexOutOfRange b.parameters.length count)
  b.parameters.checkAllSet
  let types := b.types
  let prepared := Descriptor.isPreparedFor types b.statement
  let close := !prepared && Descriptor.isParsed b.statement
  return {
    close := close
    parse := !prepared
    describe := close || !Descriptor.isDescribed b.statement
    types := types
    formats := b.parameters.formats
    values := ← b.parameters.wireValues }

def messages? (b : Binding σ) (plan : Plan) : Option (List FrontendMessage) := do
  let name := (Descriptor.name b.statement).text
  let parse ← Parse.ofTypes? name (String.ofList (Descriptor.sql b.statement)) plan.types
  let bind ← Bind.ofValues? "" name plan.formats plan.values []
  return (if plan.close then [.close statementTarget name] else []) ++
    (if plan.parse then [.parse parse] else []) ++
    (if plan.describe then [.describe statementTarget name] else []) ++
    [.bind bind, .execute "" 0]

end Binding

def pipelineMessages? {σ : Type} [Descriptor σ] (planned : List (Binding σ × Plan)) :
    Option (List FrontendMessage) := do
  let messages ← planned.mapM fun (b, plan) => b.messages? plan
  return messages.flatten ++ [.sync]

end ExtendedQuery
