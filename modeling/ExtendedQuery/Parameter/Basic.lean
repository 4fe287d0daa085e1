import ExtendedQuery.Value

/-!
# Parameters

A parameter of a statement is unbound, bound to `NULL` or bound to a value, and it is an input, an output
or both. Its type is the one it was bound with, or else the one that the server reports.
-/

namespace ExtendedQuery

def maxParameters : Nat := 65535

inductive BindError where
  | indexOutOfRange (index count : Nat)
  | unbound (index : Nat)
  | typeConflict (index : Nat) (resolved found : Oid)
  | incompatible
  | valueTooLarge (index length : Nat)
  | tooManyParameters (count : Nat)
  deriving DecidableEq, Repr

namespace BindError

def message : BindError → String
  | .indexOutOfRange index count =>
    "parameter index " ++ toString index ++ " out of range, statement have " ++ toString count ++
      " parameters"
  | .unbound index => "no value specified for parameter " ++ toString index
  | .typeConflict index resolved found =>
    "parameter " ++ toString index ++ " type resolved as oid " ++ toString resolved.toNat ++
      ", server reported oid " ++ toString found.toNat
  | .incompatible => "incompatible parameter list"
  | .valueTooLarge index length =>
    "parameter " ++ toString index ++ " value of " ++ toString length ++ " bytes is too large"
  | .tooManyParameters count =>
    toString count ++ " parameters exceed the protocol limit of " ++ toString maxParameters

end BindError

inductive Direction where
  | unset
  | input
  | output
  | both
  deriving DecidableEq, Repr

namespace Direction

def withInput : Direction → Direction
  | .unset | .input => .input
  | .output | .both => .both

def withOutput : Direction → Direction
  | .unset | .output => .output
  | .input | .both => .both

def isInput (d : Direction) : Bool := d == .input || d == .both

def isOutput (d : Direction) : Bool := d == .output || d == .both

end Direction

inductive Slot where
  | unbound
  | null
  | value (value : Value)
  deriving DecidableEq, Repr

structure Parameter where
  slot : Slot
  oid : Oid
  direction : Direction
  format : Format
  deriving DecidableEq, Repr

namespace Parameter

def unbound : Parameter := ⟨.unbound, Oid.unspecified, .unset, .text⟩

def isBound (p : Parameter) : Bool := p.slot != .unbound

def bind (p : Parameter) (value : Value) (oid : Oid) : Parameter :=
  ⟨.value value, oid, p.direction.withInput, value.format⟩

def bindNull (p : Parameter) (oid : Oid) (format : Format) : Parameter :=
  ⟨.null, if oid = Oid.unspecified then p.oid else oid, p.direction.withInput, format⟩

/-- A parameter that is an output alone is sent as `NULL` of the type `void`. -/
def markOutput (p : Parameter) : Parameter :=
  match p.direction.withOutput with
  | .output => ⟨.null, Oid.void, .output, .text⟩
  | direction => { p with direction := direction }

def resolve (p : Parameter) (found : Oid) : Parameter := { p with oid := p.oid.orElse found }

def bytes? (p : Parameter) : Option Bytes :=
  match p.slot with
  | .value value => some value.bytes
  | .unbound | .null => none

def maxValueLength : Nat := 2147483647

def wireValue (index : Nat) (p : Parameter) : Except BindError (Option Bytes) :=
  match p.slot with
  | .unbound => .error (.unbound index)
  | .null => .ok none
  | .value value =>
    let bytes := value.bytes
    if maxValueLength < bytes.length then .error (.valueTooLarge index bytes.length)
    else .ok (some bytes)

def shown (p : Parameter) : Text :=
  match p.slot with
  | .unbound => ['?']
  | .null => "NULL::".toList ++ Decimal.digits p.oid.toNat
  | .value value => value.shown ++ [':', ':'] ++ Decimal.digits p.oid.toNat

end Parameter

def announcedLength : Option Bytes → Int
  | none => -1
  | some bytes => bytes.length

end ExtendedQuery
