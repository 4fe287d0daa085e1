import ExtendedQuery.Parameter.Literal

/-!
# Parameter lists

The parameters of one statement are numbered from 1. Changing a parameter past the end makes the list
longer; the parameters between are unbound.
-/

namespace ExtendedQuery

abbrev ParameterList := List Parameter

namespace ParameterList

def ofCount (count : Nat) : ParameterList := List.replicate count .unbound

def get (list : ParameterList) (index : Nat) : Except BindError Parameter :=
  match index with
  | 0 => .error (.indexOutOfRange 0 list.length)
  | i + 1 =>
    match list[i]? with
    | some p => .ok p
    | none => .error (.indexOutOfRange (i + 1) list.length)

def growTo (list : ParameterList) (count : Nat) : ParameterList :=
  list ++ ofCount (count - list.length)

def update (list : ParameterList) (index : Nat) (change : Parameter → Except BindError Parameter) :
    Except BindError ParameterList :=
  match index with
  | 0 => .error (.indexOutOfRange 0 list.length)
  | i + 1 =>
    if maxParameters < i + 1 then .error (.tooManyParameters (i + 1))
    else
      let grown := growTo list (i + 1)
      (change (grown.getD i .unbound)).map (grown.set i)

def bind (list : ParameterList) (index : Nat) (value : Value) (oid : Oid) :
    Except BindError ParameterList :=
  update list index fun p => .ok (p.bind value oid)

def bindNull (list : ParameterList) (index : Nat) (oid : Oid) : Except BindError ParameterList :=
  update list index fun p => .ok (p.bindNull oid .text)

def bindNullFor (list : ParameterList) (index : Nat) (oid : Oid) (caps : Capabilities) :
    Except BindError ParameterList :=
  update list index fun p => .ok (p.bindNull oid (if caps.sendsBinary oid then .binary else .text))

def bindEncoded (list : ParameterList) (index : Nat) (encoded : Encoded) :
    Except BindError ParameterList :=
  match encoded.value with
  | some value => bind list index value encoded.oid
  | none => bindNull list index encoded.oid

def bindValue {α : Type} [Encode α] (list : ParameterList) (index : Nat) (value : α) :
    Except BindError ParameterList :=
  bindEncoded list index (Encode.encode value)

def markOutput (list : ParameterList) (index : Nat) : Except BindError ParameterList :=
  update list index fun p => .ok p.markOutput

def setResolvedType (list : ParameterList) (index : Nat) (found : Oid) :
    Except BindError ParameterList :=
  update list index fun p =>
    if p.oid = Oid.unspecified ∨ p.oid = found then .ok (p.resolve found)
    else .error (.typeConflict index p.oid found)

def resolve (list : ParameterList) (found : List Oid) : ParameterList :=
  List.zipWith Parameter.resolve list found ++ list.drop found.length

def oids (list : ParameterList) : List Oid := list.map (·.oid)

def formats (list : ParameterList) : List Format := list.map (·.format)

def hasUnresolvedTypes (list : ParameterList) : Bool := list.any (·.oid == Oid.unspecified)

def inCount (list : ParameterList) : Nat := list.countP (·.direction.isInput)

def outCount (list : ParameterList) : Nat := max (list.countP (·.direction.isOutput)) 1

def value (list : ParameterList) (index : Nat) : Except BindError (Option Value) := do
  match (← get list index).slot with
  | .unbound => .error (.unbound index)
  | .null => .ok none
  | .value value => .ok (some value)

def wireValue (list : ParameterList) (index : Nat) : Except BindError (Option Bytes) := do
  (← get list index).wireValue index

def wireLength (list : ParameterList) (index : Nat) : Except BindError Int :=
  (wireValue list index).map announcedLength

def serialize (list : ParameterList) (index : Nat) : Except BindError Bytes :=
  (wireValue list index).map (·.getD [])

def wireValues (list : ParameterList) : Except BindError (List (Option Bytes)) :=
  (list.zipIdx 1).mapM fun (p, index) => p.wireValue index

def checkAllSet (list : ParameterList) : Except BindError Unit :=
  match list.findIdx? (!·.isBound) with
  | some i => .error (.unbound (i + 1))
  | none => .ok ()

def literal (list : ParameterList) (index : Nat) (caps : Capabilities) : Except BindError Text :=
  (get list index).map (·.literal caps)

def merge (list other : ParameterList) : Except BindError ParameterList :=
  let count := list.length + other.length
  if maxParameters < count then .error (.tooManyParameters count) else .ok (list ++ other)

def clear (list : ParameterList) : ParameterList := ofCount list.length

def resize (list : ParameterList) (count : Nat) : ParameterList := (growTo list count).take count

def shown (list : ParameterList) : Text := Text.listed (list.map Parameter.shown)

end ParameterList

end ExtendedQuery
