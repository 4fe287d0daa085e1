import ExtendedQuery.Sql.Fragments
import ExtendedQuery.Statement.Field
import ExtendedQuery.Statement.Name

/-!
# Descriptors

A descriptor records what the server knows of a statement: whether it was parsed, and with which types,
and whether its parameters and its result were described. Executing a statement leaves out what the
server knows already.
-/

namespace ExtendedQuery

class Descriptor (σ : Type) where
  fragments : σ → Sql.Fragments
  sql : σ → Text
  name : σ → StatementName
  types : σ → List Oid
  fields : σ → List Field
  prepared : σ → Option (List Oid)
  isDescribed : σ → Bool
  setPrepared : Option (List Oid) → σ → σ
  setTypes : List Oid → σ → σ
  /-- Records the fields that the server reports, the statement being described then. -/
  setFields : List Field → σ → σ

namespace Descriptor

variable {σ : Type} [Descriptor σ]

def isParsed (s : σ) : Bool := (prepared s).isSome

def isPreparedFor (wanted : List Oid) (s : σ) : Bool :=
  match prepared s with
  | some declared => Oid.accepts declared wanted
  | none => false

end Descriptor

end ExtendedQuery
