import ExtendedQuery.Bytes

/-!
# Faults in UTF-8

A character starts with a byte that says how many more belong to it, and in what range the second one
lies. Bytes that are no text are reported at the first character that is not complete: either the bytes
end within it, or so many of its bytes are well formed and the next one is not.
-/

namespace ExtendedQuery.Text.Utf8

abbrev Range := UInt8 × UInt8

def continuation : Range := (0x80, 0xBF)

/-- The bytes that follow the first byte of a character, nothing if no character starts with it. -/
def followers (b : UInt8) : Option (List Range) :=
  if b ≤ 0x7F then some []
  else if 0xC2 ≤ b ∧ b ≤ 0xDF then some [continuation]
  else if b = 0xE0 then some [(0xA0, 0xBF), continuation]
  else if b = 0xED then some [(0x80, 0x9F), continuation]
  else if 0xE1 ≤ b ∧ b ≤ 0xEF then some [continuation, continuation]
  else if b = 0xF0 then some [(0x90, 0xBF), continuation, continuation]
  else if 0xF1 ≤ b ∧ b ≤ 0xF3 then some [continuation, continuation, continuation]
  else if b = 0xF4 then some [(0x80, 0x8F), continuation, continuation]
  else none

inductive Fault where
  | invalid (length index : Nat)
  | incomplete (index : Nat)
  deriving DecidableEq, Repr

def Fault.message : Fault → String
  | .invalid length index =>
    "invalid utf-8 sequence of " ++ toString length ++ " bytes from index " ++ toString index
  | .incomplete index => "incomplete utf-8 byte sequence from index " ++ toString index

/-- The fault in the rest of the bytes, where `taken` bytes of the character that starts at `index` were
read and `pending` follow. -/
def faultAfter (index taken : Nat) : (pending : List Range) → Bytes → Option Fault
  | [], [] => none
  | _ :: _, [] => some (.incomplete index)
  | [], b :: bytes =>
    match followers b with
    | none => some (.invalid 1 index)
    | some [] => faultAfter (index + 1) 0 [] bytes
    | some pending => faultAfter index 1 pending bytes
  | range :: pending, b :: bytes =>
    if range.1 ≤ b ∧ b ≤ range.2 then
      match pending with
      | [] => faultAfter (index + taken + 1) 0 [] bytes
      | pending => faultAfter index (taken + 1) pending bytes
    else some (.invalid taken index)

def fault? (bytes : Bytes) : Option Fault := faultAfter 0 0 [] bytes

end ExtendedQuery.Text.Utf8
