import ExtendedQuery.Value

/-!
# Messages to the server

A message is a type byte, a length and a body; the length counts itself and the body. The length is
computed before the body is written, from the counts and sizes that the message declares, and a message
whose body turns out to be of another length is not written. Neither is one that is too long for the
four bytes of its length.
-/

namespace ExtendedQuery.Wire

structure Parse where
  name : String
  sql : String
  typeCount : UInt16
  types : List Oid
  deriving DecidableEq, Repr

structure Bind where
  portal : String
  statement : String
  formatCount : UInt16
  formats : List Format
  valueCount : UInt16
  valuesSize : Nat
  values : List (Option Bytes)
  resultFormatCount : UInt16
  resultFormats : List Format
  deriving DecidableEq, Repr

inductive FrontendMessage where
  | parse (message : Parse)
  | bind (message : Bind)
  /-- A limit of zero rows stands for none. -/
  | execute (portal : String) (maxRows : UInt32)
  /-- The target byte says whether the name is one of a statement, `S`, or of a portal, `P`. -/
  | describe (target : UInt8) (name : String)
  | close (target : UInt8) (name : String)
  | sync
  deriving DecidableEq, Repr

def statementTarget : UInt8 := 0x53

def sizeOfValues : (values : List (Option Bytes)) → Nat
  | [] => 0
  | none :: values => 4 + sizeOfValues values
  | some bytes :: values => 4 + bytes.length + sizeOfValues values

def valueBytes : Option Bytes → Bytes
  | none => Bytes.ofUInt32 0xFFFFFFFF
  | some bytes => Bytes.bigEndian 4 bytes.length ++ bytes

def formatBytes (format : Format) : Bytes := Bytes.ofUInt16 format.code

namespace FrontendMessage

def typeByte : FrontendMessage → UInt8
  | .parse _ => 0x50
  | .bind _ => 0x42
  | .execute _ _ => 0x45
  | .describe _ _ => 0x44
  | .close _ _ => 0x43
  | .sync => 0x53

def stringSize (s : String) : Nat := s.utf8ByteSize + 1

def declaredSize : FrontendMessage → Nat
  | .parse m => stringSize m.name + stringSize m.sql + 2 + m.typeCount.toNat * 4
  | .bind m =>
    stringSize m.portal + stringSize m.statement + 2 + m.formatCount.toNat * 2 + 2 + m.valuesSize +
      2 + m.resultFormatCount.toNat * 2
  | .execute portal _ => stringSize portal + 4
  | .describe _ name => 1 + stringSize name
  | .close _ name => 1 + stringSize name
  | .sync => 0

def body : FrontendMessage → Bytes
  | .parse m =>
    Bytes.ofStringZero m.name ++ Bytes.ofStringZero m.sql ++ Bytes.ofUInt16 m.typeCount ++
      m.types.flatMap Bytes.ofUInt32
  | .bind m =>
    Bytes.ofStringZero m.portal ++ Bytes.ofStringZero m.statement ++
      Bytes.ofUInt16 m.formatCount ++ m.formats.flatMap formatBytes ++
      Bytes.ofUInt16 m.valueCount ++ m.values.flatMap valueBytes ++
      Bytes.ofUInt16 m.resultFormatCount ++ m.resultFormats.flatMap formatBytes
  | .execute portal maxRows => Bytes.ofStringZero portal ++ Bytes.ofUInt32 maxRows
  | .describe target name => target :: Bytes.ofStringZero name
  | .close target name => target :: Bytes.ofStringZero name
  | .sync => []

def frame? (message : FrontendMessage) : Option Bytes :=
  let body := message.body
  if body.length = message.declaredSize ∧ 4 + message.declaredSize < UInt32.size then
    some (message.typeByte :: Bytes.bigEndian 4 (4 + message.declaredSize) ++ body)
  else none

def writeAll? (messages : List FrontendMessage) (buffer : Bytes) : Option Bytes := do
  return buffer ++ (← messages.mapM frame?).flatten

end FrontendMessage

def count16? (n : Nat) : Option UInt16 := if n < UInt16.size then some (UInt16.ofNat n) else none

def Parse.ofTypes? (name sql : String) (types : List Oid) : Option Parse := do
  return ⟨name, sql, ← count16? types.length, types⟩

def Bind.ofValues? (portal statement : String) (formats : List Format) (values : List (Option Bytes))
    (resultFormats : List Format) : Option Bind := do
  return ⟨portal, statement, ← count16? formats.length, formats, ← count16? values.length,
    sizeOfValues values, values, ← count16? resultFormats.length, resultFormats⟩

end ExtendedQuery.Wire
