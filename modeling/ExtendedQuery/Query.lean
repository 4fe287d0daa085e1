import ExtendedQuery.Config
import ExtendedQuery.Parameter.Composite
import ExtendedQuery.Statement.Batched

/-!
# Queries

SQL text is prepared once into a query and executed many times. Text of several statements makes a
composite query; a single insert that can grow makes a batched one if the configuration asks for it; any
other text makes a query of one statement.
-/

namespace ExtendedQuery

inductive Query where
  | single (statement : Statement)
  | batched (insert : BatchedStatement)
  | composite (statements : List Statement)
  deriving DecidableEq, Repr

namespace Query

/-- The query of a text, and the numbers left for further names. A query that is not kept consists of
unnamed statements. -/
def prepare (sql : Text) (kept : Bool) (caps : Capabilities) (config : Config) (names : NameSupply) :
    Except Sql.Unterminated (Query × NameSupply) :=
  match Sql.splitStatements caps.standardConformingStrings sql with
  | .error e => .error e
  | .ok [fragments] =>
    let (name, names) := names.take kept
    let statement := Statement.ofFragments fragments name
    if config.mergeInserts && fragments.isGrowable then
      .ok (.batched (.ofStatement statement config.maxBatchRows), names)
    else .ok (.single statement, names)
  | .ok statements =>
    let (statements, names) := names.takeFor Statement.ofFragments kept statements
    .ok (.composite statements, names)

def isBlank : Query → Bool
  | .single s => s.isBlank
  | .batched _ => false
  | .composite statements => statements.all Statement.isBlank

def isDescribed : Query → Bool
  | .single s => s.described
  | .batched s => s.isDescribed
  | .composite statements => statements.all (·.described)

def sql : Query → Text
  | .single s => s.sql
  | .batched s => s.sql
  | .composite statements => [';'].intercalate (statements.map Statement.sql)

def createParameters : Query → Parameters
  | .single s => .single s.createParameters
  | .batched s => .single s.createParameters
  | .composite statements => .composite (statements.map Statement.createParameters)

def render (query : Query) (parameters : Parameters) (caps : Capabilities) : Except BindError Text :=
  match query, parameters with
  | .single s, .single list => .ok (s.fragments.render list caps)
  | .batched s, .single list =>
    let fragments := if s.arity < list.length then s.fragments else s.base
    .ok (fragments.render list caps)
  | .composite statements, .composite lists =>
    if lists.length ≠ statements.length then .error .incompatible
    else
      .ok ([';'].intercalate
        (List.zipWith (fun (s : Statement) list => s.fragments.render list caps) statements lists))
  | _, _ => .error .incompatible

def close : Query → Query × List StatementName
  | .single s =>
    let (s, name) := s.close
    (.single s, name.toList)
  | .batched s =>
    let (s, names) := s.close
    (.batched s, names)
  | .composite statements =>
    (.composite (statements.map (·.close.1)), statements.filterMap (·.close.2))

end Query

end ExtendedQuery
