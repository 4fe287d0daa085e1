import ExtendedQuery.Decimal.Basic

/-!
# Shortest decimals of binary numbers

A binary floating point number is written by the decimal with the fewest digits that is nearer to it than
to any other number of its format, and of those by the nearest. The decimals with so many places lie on a
grid, a power of ten apart; the coarsest grid with a point close enough gives the shortest decimal. Of two
points that are equally near the user of the decimal says which is taken.
-/

namespace ExtendedQuery.Decimal

structure BinaryFormat where
  fractionBits : Nat
  exponentBits : Nat
  deriving DecidableEq, Repr

def BinaryFormat.single : BinaryFormat := ⟨23, 8⟩
def BinaryFormat.double : BinaryFormat := ⟨52, 11⟩

/-- A number that bits stand for. A finite one is `mantissa * 2 ^ exponent`; `boundary` says that the
numbers below it are twice as close together. -/
inductive BinaryNumber where
  | nan
  | infinite (negative : Bool)
  | finite (negative : Bool) (mantissa : Nat) (exponent : Int) (boundary : Bool)
  deriving DecidableEq, Repr

def BinaryFormat.decode (format : BinaryFormat) (bits : Nat) : BinaryNumber :=
  let unit := Nat.pow 2 format.fractionBits
  let fraction := bits % unit
  let exponents := Nat.pow 2 format.exponentBits
  let exponent := bits / unit % exponents
  let negative := bits / unit / exponents % 2 = 1
  let bias := exponents / 2 - 1
  if exponent = exponents - 1 then
    if fraction = 0 then .infinite negative else .nan
  else if exponent = 0 then
    .finite negative fraction (1 - (bias : Int) - format.fractionBits) false
  else
    .finite negative (unit + fraction) (exponent - (bias : Int) - format.fractionBits)
      (fraction = 0 && exponent != 1)

structure Scientific where
  digits : Nat
  exponent : Int
  deriving DecidableEq, Repr

inductive Tie where
  | toEven
  | up
  deriving DecidableEq, Repr

def Tie.takesLower (tie : Tie) (lower : Nat) : Bool :=
  match tie with
  | .toEven => lower % 2 = 0
  | .up => false

/-- The numbers that are nearer to `centre` than to its neighbours: in units of `2 ^ exponent` from `low`
to `high`, both ends included if `closed`. -/
structure Neighbourhood where
  low : Nat
  centre : Nat
  high : Nat
  exponent : Int
  closed : Bool
  deriving DecidableEq, Repr

namespace Neighbourhood

def ofNumber (mantissa : Nat) (exponent : Int) (boundary : Bool) : Neighbourhood :=
  ⟨4 * mantissa - (if boundary then 1 else 2), 4 * mantissa, 4 * mantissa + 2, exponent - 2,
    mantissa % 2 = 0⟩

def pointOnGrid? (tie : Tie) (n : Neighbourhood) (k : Int) : Option Nat :=
  let scale := Nat.pow 2 n.exponent.toNat * Nat.pow 10 (-k).toNat
  let grid := Nat.pow 2 (-n.exponent).toNat * Nat.pow 10 k.toNat
  let low := n.low * scale
  let centre := n.centre * scale
  let high := n.high * scale
  let lies := fun x =>
    if n.closed then low ≤ x * grid && x * grid ≤ high else low < x * grid && x * grid < high
  let below := centre / grid
  match lies below, lies (below + 1) with
  | true, true =>
    match compare (centre - below * grid) ((below + 1) * grid - centre) with
    | .lt => some below
    | .eq => some (if tie.takesLower below then below else below + 1)
    | .gt => some (below + 1)
  | true, false => some below
  | false, true => some (below + 1)
  | false, false => none

def search (tie : Tie) (n : Neighbourhood) : (count : Nat) → (k : Int) → Option Scientific
  | 0, _ => none
  | count + 1, k =>
    match n.pointOnGrid? tie k with
    | some digits => some ⟨digits, k⟩
    | none => search tie n count (k - 1)

/-- The coarsest grid is the first one on which every point but zero is too large; the finest one that is
needed has a point at the centre itself. -/
def shortest (tie : Tie) (n : Neighbourhood) : Scientific :=
  let top := (digits (n.high * Nat.pow 2 n.exponent.toNat)).length
  (n.search tie (top + (-n.exponent).toNat + 1) top).getD ⟨0, 0⟩

end Neighbourhood

def shortest (tie : Tie) (mantissa : Nat) (exponent : Int) (boundary : Bool) : Scientific :=
  if mantissa = 0 then ⟨0, 0⟩ else (Neighbourhood.ofNumber mantissa exponent boundary).shortest tie

namespace Scientific

def positional (x : Scientific) : Text :=
  let ds := Decimal.digits x.digits
  let places := (-x.exponent).toNat
  if 0 ≤ x.exponent then ds ++ (if x.digits = 0 then [] else List.replicate x.exponent.toNat '0')
  else if places < ds.length then ds.take (ds.length - places) ++ '.' :: ds.drop (ds.length - places)
  else ['0', '.'] ++ List.replicate (places - ds.length) '0' ++ ds

end Scientific

def BinaryNumber.positional (tie : Tie) : BinaryNumber → Text
  | .nan => "NaN".toList
  | .infinite false => "inf".toList
  | .infinite true => "-inf".toList
  | .finite negative mantissa exponent boundary =>
    (if negative then ['-'] else []) ++ (shortest tie mantissa exponent boundary).positional

end ExtendedQuery.Decimal
