import ExtendedQuery.Decimal.Basic
import ExtendedQuery.Oid

/-!
# Server capabilities

What the server can do decides how literals are written and in which form values are sent. The server
reports changes of its settings at any time; two of them matter here.
-/

namespace ExtendedQuery

structure Capabilities where
  standardConformingStrings : Bool
  extendedEscapes : Bool
  binaryTypes : List Oid
  deriving DecidableEq, Repr

namespace Capabilities

/-- What every server since 9.1 can do. -/
def default : Capabilities :=
  ⟨true, true,
    [Oid.bool, Oid.bytea, Oid.int2, Oid.int4, Oid.int8, Oid.float4, Oid.float8, Oid.uuid]⟩

def sendsBinary (caps : Capabilities) (oid : Oid) : Bool := caps.binaryTypes.contains oid

def withBinary (caps : Capabilities) (oid : Oid) : Capabilities :=
  if caps.sendsBinary oid then caps else { caps with binaryTypes := caps.binaryTypes ++ [oid] }

def withoutBinary (caps : Capabilities) (oid : Oid) : Capabilities :=
  { caps with binaryTypes := caps.binaryTypes.filter (· != oid) }

/-- The numbers in a version text; one that does not fit in 32 bits counts as zero. -/
def versionNumbers (text : Text) : List Nat :=
  ((text.splitOnP (!·.isDigit)).filter (· ≠ [])).map fun run =>
    (Decimal.readBelow? UInt32.size run).getD 0

def versionHasEscapes (numbers : List Nat) : Bool :=
  let major := numbers.getD 0 0
  let minor := numbers.getD 1 0
  8 < major || (major == 8 && 1 ≤ minor)

def report (caps : Capabilities) (name value : String) : Capabilities :=
  if name = "standard_conforming_strings" then
    { caps with standardConformingStrings := Text.foldCase value.toList == ['o', 'n'] }
  else if name = "server_version" then
    { caps with extendedEscapes := versionHasEscapes (versionNumbers value.toList) }
  else caps

end Capabilities

end ExtendedQuery
