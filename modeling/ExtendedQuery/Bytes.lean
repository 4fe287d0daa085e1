import ExtendedQuery.Text.Basic

/-!
# Bytes

Messages are lists of bytes. Numbers are written with the most significant byte first, and text in its
UTF-8 form. Main statement: `Bytes.value_bigEndian`, a number is the value of its bytes.
-/

namespace ExtendedQuery

abbrev Bytes := List UInt8

namespace Bytes

def bigEndian : (width : Nat) → Nat → Bytes
  | 0, _ => []
  | width + 1, n => bigEndian width (n / 256) ++ [UInt8.ofNat (n % 256)]

def value (bytes : Bytes) : Nat := bytes.foldl (fun n b => 256 * n + b.toNat) 0

@[simp] theorem length_bigEndian (width n : Nat) : (bigEndian width n).length = width := by
  induction width generalizing n with
  | zero => rfl
  | succ width ih => simp [bigEndian, ih]

theorem value_concat (bytes : Bytes) (b : UInt8) :
    value (bytes ++ [b]) = 256 * value bytes + b.toNat := by
  simp [value]

theorem value_bigEndian (width n : Nat) : value (bigEndian width n) = n % Nat.pow 256 width := by
  induction width generalizing n with
  | zero => exact (Nat.mod_one n).symm
  | succ width ih =>
    have step : Nat.pow 256 (width + 1) = 256 * Nat.pow 256 width := Nat.mul_comm _ 256
    rw [bigEndian, value_concat, ih, step, Nat.mod_mul]
    simp [Nat.add_comm]

def ofUInt16 (n : UInt16) : Bytes := bigEndian 2 n.toNat
def ofUInt32 (n : UInt32) : Bytes := bigEndian 4 n.toNat
def ofUInt64 (n : UInt64) : Bytes := bigEndian 8 n.toNat

def toUInt16 (bytes : Bytes) : UInt16 := UInt16.ofNat (value bytes)
def toUInt32 (bytes : Bytes) : UInt32 := UInt32.ofNat (value bytes)
def toUInt64 (bytes : Bytes) : UInt64 := UInt64.ofNat (value bytes)

@[simp] theorem toUInt16_ofUInt16 (n : UInt16) : toUInt16 (ofUInt16 n) = n := by
  have below : n.toNat < Nat.pow 256 2 := n.toNat_lt
  rw [toUInt16, ofUInt16, value_bigEndian, Nat.mod_eq_of_lt below, UInt16.ofNat_toNat]

@[simp] theorem toUInt32_ofUInt32 (n : UInt32) : toUInt32 (ofUInt32 n) = n := by
  have below : n.toNat < Nat.pow 256 4 := n.toNat_lt
  rw [toUInt32, ofUInt32, value_bigEndian, Nat.mod_eq_of_lt below, UInt32.ofNat_toNat]

def ofString (s : String) : Bytes := s.toUTF8.data.toList

def toString? (bytes : Bytes) : Option String := String.fromUTF8? ⟨bytes.toArray⟩

def ofStringZero (s : String) : Bytes := ofString s ++ [0]

end Bytes

end ExtendedQuery
