import ExtendedQuery.Text.Basic

/-!
# Decimal numerals

Numbers are written in decimal without leading zeros. A count in option text or in a reply is read from
digits alone, with at most one `+` before them, and has to fit in 64 bits.
-/

namespace ExtendedQuery.Decimal

def digits (n : Nat) : Text := Nat.toDigits 10 n

theorem isDigit_of_mem_digits {n : Nat} {c : Char} (member : c ∈ digits n) : c.isDigit = true :=
  Nat.isDigit_of_mem_toDigits (by decide) (by decide) member

def padded (width n : Nat) : Text :=
  let ds := digits n
  List.replicate (width - ds.length) '0' ++ ds

def signed (n : Int) : Text :=
  if n < 0 then '-' :: digits n.natAbs else digits n.natAbs

def ofDigits? (text : Text) : Option Nat :=
  if text ≠ [] ∧ text.all Char.isDigit then
    some (text.foldl (fun n c => 10 * n + (c.toNat - '0'.toNat)) 0)
  else none

def readBelow? (bound : Nat) (text : Text) : Option Nat :=
  let digits := if text.head? = some '+' then text.tail else text
  (ofDigits? digits).filter (· < bound)

def readCount? (text : Text) : Option Nat := readBelow? UInt64.size text

def readPositive? (text : Text) : Option Nat := (readCount? text).filter (0 < ·)

end ExtendedQuery.Decimal
