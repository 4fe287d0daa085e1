import ExtendedQuery.Bytes
import ExtendedQuery.Decimal.Shortest

/-!
# Floating point values

The server stores floating point numbers as their bits, and every pattern of bits is a value of its own:
a number that is not a number keeps its payload, and the two zeros differ.
-/

namespace ExtendedQuery

structure Float4 where
  bits : UInt32
  deriving DecidableEq, Repr

structure Float8 where
  bits : UInt64
  deriving DecidableEq, Repr

def Float4.number (x : Float4) : Decimal.BinaryNumber := Decimal.BinaryFormat.single.decode x.bits.toNat

def Float8.number (x : Float8) : Decimal.BinaryNumber := Decimal.BinaryFormat.double.decode x.bits.toNat

end ExtendedQuery
