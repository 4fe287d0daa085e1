import ExtendedQuery.Json
import ExtendedQuery.Oid
import ExtendedQuery.Timestamp

/-!
# Values

A value is sent to the server either as text or in the binary form of its type, and the form decides the
format in which its parameter is transferred. Each type of value that can be bound names its type at the
server and has one way to be encoded; the absence of a value is a `NULL` of that type.
-/

namespace ExtendedQuery

inductive Format where
  | text
  | binary
  deriving DecidableEq, Repr

namespace Format

def code : Format → UInt16
  | .text => 0
  | .binary => 1

def ofCode? (code : Int) : Option Format :=
  if code = 0 then some .text else if code = 1 then some .binary else none

end Format

inductive Value where
  | text (text : String)
  | binary (bytes : Bytes)
  deriving DecidableEq, Repr

namespace Value

def format : Value → Format
  | .text _ => .text
  | .binary _ => .binary

def bytes : Value → Bytes
  | .text s => Bytes.ofString s
  | .binary b => b

def shown : Value → Text
  | .text s => Text.quoted s.toList
  | .binary b => Text.quotedBytes b

end Value

structure Encoded where
  value : Option Value
  oid : Oid
  deriving DecidableEq, Repr

namespace Encoded

def text (text : String) (oid : Oid) : Encoded := ⟨some (.text text), oid⟩

def binary (bytes : Bytes) (oid : Oid) : Encoded := ⟨some (.binary bytes), oid⟩

def null (oid : Oid) : Encoded := ⟨none, oid⟩

end Encoded

class ServerType (α : Type) where
  oid : Oid

class Encode (α : Type) where
  encode : α → Encoded

instance : Encode Encoded := ⟨id⟩

instance : ServerType Int16 := ⟨Oid.int2⟩
instance : ServerType Int32 := ⟨Oid.int4⟩
instance : ServerType Int64 := ⟨Oid.int8⟩
instance : ServerType Float4 := ⟨Oid.float4⟩
instance : ServerType Float8 := ⟨Oid.float8⟩
instance : ServerType Bool := ⟨Oid.bool⟩
instance : ServerType String := ⟨Oid.text⟩
instance : ServerType Bytes := ⟨Oid.bytea⟩
instance : ServerType Json := ⟨Oid.jsonb⟩
instance : ServerType Timestamp := ⟨Oid.timestamp⟩
instance : ServerType UtcTimestamp := ⟨Oid.timestamptz⟩

instance : Encode Int16 := ⟨fun n => .binary (Bytes.ofUInt16 n.toUInt16) (ServerType.oid Int16)⟩
instance : Encode Int32 := ⟨fun n => .binary (Bytes.ofUInt32 n.toUInt32) (ServerType.oid Int32)⟩
instance : Encode Int64 := ⟨fun n => .binary (Bytes.ofUInt64 n.toUInt64) (ServerType.oid Int64)⟩
instance : Encode Float4 := ⟨fun x => .binary (Bytes.ofUInt32 x.bits) (ServerType.oid Float4)⟩
instance : Encode Float8 := ⟨fun x => .binary (Bytes.ofUInt64 x.bits) (ServerType.oid Float8)⟩
instance : Encode Bool := ⟨fun b => .binary [if b then 1 else 0] (ServerType.oid Bool)⟩
instance : Encode String := ⟨fun s => .text s (ServerType.oid String)⟩
instance : Encode Bytes := ⟨fun bytes => .binary bytes (ServerType.oid Bytes)⟩
instance : Encode Json := ⟨fun json => .text (String.ofList json.write) (ServerType.oid Json)⟩
instance : Encode Timestamp := ⟨fun t => .text (String.ofList t.text) (ServerType.oid Timestamp)⟩
instance : Encode UtcTimestamp :=
  ⟨fun t => .text (String.ofList t.text) (ServerType.oid UtcTimestamp)⟩

instance {α : Type} [ServerType α] [Encode α] : Encode (Option α) where
  encode
    | some value => Encode.encode value
    | none => .null (ServerType.oid α)

end ExtendedQuery
