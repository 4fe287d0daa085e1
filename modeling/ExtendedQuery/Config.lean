import ExtendedQuery.Decimal.Basic

/-!
# Configuration

Three settings govern how queries are prepared. They are written as options `key=value` joined by `&`,
with or without the `?` that starts the query of a connection address, or taken one by one from the
environment. Options are applied in order, so a later one wins, and the first one that cannot be applied
is reported; in the environment a setting that cannot be read is left at its default.
-/

namespace ExtendedQuery

structure Config where
  mergeInserts : Bool
  statementCacheSize : Nat
  maxBatchRows : Nat
  deriving DecidableEq, Repr

namespace Config

def default : Config := ⟨false, 256, 128⟩

def withMaxBatchRows (config : Config) (rows : Nat) : Config :=
  { config with maxBatchRows := max rows 1 }

inductive Setting where
  | mergeInserts
  | statementCacheSize
  | maxBatchRows
  deriving DecidableEq, Repr

namespace Setting

def name : Setting → String
  | .mergeInserts => "rewrite_batched_inserts"
  | .statementCacheSize => "statement_cache_size"
  | .maxBatchRows => "max_batch_rows"

def ofKey? (key : Text) : Option Setting :=
  if key = "rewrite_batched_inserts".toList ∨ key = "reWriteBatchedInserts".toList then
    some .mergeInserts
  else if key = "statement_cache_size".toList ∨ key = "preparedStatementCacheQueries".toList then
    some .statementCacheSize
  else if key = "max_batch_rows".toList then some .maxBatchRows
  else none

end Setting

def readSwitch? (value : Text) : Option Bool :=
  let value := Text.foldCase value
  if ["true", "on", "yes", "1"].any (·.toList = value) then some true
  else if ["false", "off", "no", "0"].any (·.toList = value) then some false
  else none

def set? (config : Config) (setting : Setting) (value : Text) : Option Config :=
  match setting with
  | .mergeInserts =>
    (readSwitch? value).map fun on => { config with mergeInserts := on }
  | .statementCacheSize =>
    (Decimal.readPositive? value).map fun size => { config with statementCacheSize := size }
  | .maxBatchRows =>
    (Decimal.readPositive? value).map fun rows => { config with maxBatchRows := rows }

inductive OptionError where
  | missingValue (option : Text)
  | invalid (setting : Setting)
  deriving DecidableEq, Repr

namespace OptionError

def reason : OptionError → String
  | .missingValue option => "missing value for \x60" ++ String.ofList option ++ "\x60"
  | .invalid setting => "invalid " ++ setting.name

def message (e : OptionError) : String := "failed to parse config: " ++ e.reason

end OptionError

/-- Applies one option. The value is all that follows the first `=`, and an unknown key has no effect. -/
def applyOption (config : Config) (option : Text) : Except OptionError Config :=
  match option.dropWhile (· != '=') with
  | [] => .error (.missingValue option)
  | _ :: value =>
    match Setting.ofKey? (option.takeWhile (· != '=')) with
    | none => .ok config
    | some setting =>
      match config.set? setting value with
      | none => .error (.invalid setting)
      | some config => .ok config

def optionsOf (text : Text) : List Text :=
  ((if text.head? = some '?' then text.tail else text).splitOn '&').filter (· ≠ [])

def parse (text : Text) : Except OptionError Config := (optionsOf text).foldlM applyOption default

def ofEnvironment (value? : Setting → Option Text) : Config :=
  [Setting.mergeInserts, .statementCacheSize, .maxBatchRows].foldl (fun config setting =>
    ((value? setting).bind (config.set? setting)).getD config) default

end Config

end ExtendedQuery
