import ExtendedQuery.Value

/-!
# Result fields
-/

namespace ExtendedQuery

/-- A column of the result of a statement, as the server describes it. Table and column are zero unless
the column is one of a table, and a negative size means that values differ in size. -/
structure Field where
  name : String
  table : Oid
  column : Int16
  oid : Oid
  size : Int16
  modifier : Int32
  format : Format
  deriving DecidableEq, Repr

end ExtendedQuery
