import ExtendedQuery.Parameter.List
import ExtendedQuery.Statement.Descriptor

/-!
# Single statements
-/

namespace ExtendedQuery

structure Statement where
  fragments : Sql.Fragments
  name : StatementName
  types : List Oid
  fields : List Field
  prepared : Option (List Oid)
  described : Bool
  deriving DecidableEq, Repr

/-- The statement with literals in the place of its placeholders. Where there is no parameter the
placeholder is written as a mark. -/
def Sql.Fragments.render (fragments : Sql.Fragments) (parameters : ParameterList)
    (caps : Capabilities) : Text :=
  fragments.first ++ (fragments.later.zipIdx 1).flatMap fun (part, index) =>
    (match parameters.literal index caps with
      | .ok literal => literal
      | .error _ => ['?']) ++ part

namespace Statement

def ofFragments (fragments : Sql.Fragments) (name : StatementName) : Statement :=
  ⟨fragments, name, List.replicate fragments.placeholderCount Oid.unspecified, [], none, false⟩

def sql (s : Statement) : Text := s.fragments.native

def isBlank (s : Statement) : Bool := s.fragments.isBlank

def createParameters (s : Statement) : ParameterList := .ofCount s.fragments.placeholderCount

/-- Nothing is recorded of the unnamed statement, which is parsed at every execution. A statement that
was closed has to be described again. -/
def setPrepared (types : Option (List Oid)) (s : Statement) : Statement :=
  if s.name.isUnnamed then s
  else { s with prepared := types, described := s.described && types.isSome }

def setTypes (types : List Oid) (s : Statement) : Statement :=
  { s with prepared := s.prepared.map (Oid.fill · types), types := types }

def setFields (fields : List Field) (s : Statement) : Statement :=
  { s with fields := fields, described := true }

/-- Forgets what the server knows. The name is returned if a statement of that name has to be closed. -/
def close (s : Statement) : Statement × Option StatementName :=
  ({ s with fields := [], prepared := none, described := false },
    if s.prepared.isSome && !s.name.isUnnamed then some s.name else none)

instance : Descriptor Statement where
  fragments := fragments
  sql := sql
  name := name
  types := types
  fields := fields
  prepared := prepared
  isDescribed := described
  setPrepared := setPrepared
  setTypes := setTypes
  setFields := setFields

end Statement

end ExtendedQuery
