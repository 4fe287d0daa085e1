import ExtendedQuery.Capabilities
import ExtendedQuery.Parameter.Basic

/-!
# Parameters as literals

For logs a parameter is written into the text of its statement: a text as a quoted literal that the server
would read back, a number or truth value in binary form by its value, and anything else as a mark.
-/

namespace ExtendedQuery

namespace Literal

def escapedChar (standard : Bool) (c : Char) : Text :=
  if c = '\x27' then ['\x27', '\x27']
  else if c = '\x5c' ∧ !standard then ['\x5c', '\x5c']
  else [c]

/-- A text literal, marked by `E` if it has escapes and the server knows the mark. A zero character has
no written form; a text that holds one is left as it is. -/
def ofText (caps : Capabilities) (text : Text) : Text :=
  let standard := caps.standardConformingStrings
  let mark : Text := if text.contains '\x5c' && !standard && caps.extendedEscapes then ['E'] else []
  let content := if text.contains '\x00' then text else text.flatMap (escapedChar standard)
  mark ++ '\x27' :: content ++ ['\x27']

def signedValue (bytes : Bytes) : Int :=
  let n := Bytes.value bytes
  let modulus := Nat.pow 256 bytes.length
  if 2 * n < modulus then n else (n : Int) - modulus

def ofInteger (width : Nat) (bytes : Bytes) : Text :=
  if bytes.length = width then Decimal.signed (signedValue bytes) else ['?']

def ofNumber (x : Decimal.BinaryNumber) : Text := x.positional .up

def ofBinary (oid : Oid) (bytes : Bytes) : Text :=
  if oid = Oid.int2 then ofInteger 2 bytes
  else if oid = Oid.int4 then ofInteger 4 bytes
  else if oid = Oid.int8 then ofInteger 8 bytes
  else if oid = Oid.float4 then
    if bytes.length = 4 then ofNumber (Float4.mk (Bytes.toUInt32 bytes)).number else ['?']
  else if oid = Oid.float8 then
    if bytes.length = 8 then ofNumber (Float8.mk (Bytes.toUInt64 bytes)).number else ['?']
  else if oid = Oid.bool then
    match bytes with
    | [b] => if b = 0 then "false".toList else "true".toList
    | _ => ['?']
  else ['?']

end Literal

def Parameter.literal (caps : Capabilities) (p : Parameter) : Text :=
  match p.slot with
  | .unbound => ['?']
  | .null => "NULL".toList
  | .value (.text s) => Literal.ofText caps s.toList
  | .value (.binary bytes) => Literal.ofBinary p.oid bytes

end ExtendedQuery
