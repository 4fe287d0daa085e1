import ExtendedQuery.Config
import ExtendedQuery.Query
import ExtendedQuery.Wire.Backend

/-!
# Errors
-/

namespace ExtendedQuery

inductive TransportError where
  | endOfInput
  | brokenPipe
  deriving DecidableEq, Repr

def TransportError.message : TransportError → String
  | .endOfInput => "unexpected end of file"
  | .brokenPipe => "broken pipe"

inductive Error where
  | config (e : Config.OptionError)
  | parse (e : Sql.Unterminated)
  | bind (e : BindError)
  | growth (e : GrowthError)
  | protocol (e : Wire.ProtocolError)
  | transport (e : TransportError)
  | server (report : Wire.Report)
  | oversized
  deriving DecidableEq, Repr

namespace Error

def message : Error → String
  | .config e => e.message
  | .parse e => e.message
  | .bind e => e.message
  | .growth e => e.message
  | .protocol e => e.message
  | .transport e => e.message
  | .server report => report.text
  | .oversized => "message size too large for protocol"

def shown (e : Error) : String :=
  match e with
  | .protocol e => e.message
  | e => "\"" ++ e.message ++ "\""

end Error

end ExtendedQuery
