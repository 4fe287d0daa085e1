import ExtendedQuery.Parameter.List

/-!
# Parameters of several statements

Each statement of a query has a list of its own. The parameters are numbered through all lists, and an
index belongs to the list in which the concatenation of the lists has it. Lists do not become longer.
-/

namespace ExtendedQuery

abbrev CompositeParameters := List ParameterList

def BindError.raise (offset : Nat) : BindError → BindError
  | .unbound index => .unbound (index + offset)
  | e => e

/-- Lists and their places in the concatenation. -/
structure RoutedLists where
  lists : List ParameterList
  offsets : List Nat
  total : Nat
  deriving DecidableEq, Repr

namespace RoutedLists

def offsetsFrom (total : Nat) : (lists : List ParameterList) → List Nat × Nat
  | [] => ([], total)
  | list :: later =>
    let (offsets, sum) := offsetsFrom (total + list.length) later
    (total :: offsets, sum)

def ofLists (lists : List ParameterList) : RoutedLists :=
  let (offsets, total) := offsetsFrom 0 lists
  ⟨lists, offsets, total⟩

def search (offsets : List Nat) (index low high : Nat) : Nat :=
  if _between : low < high then
    let middle := low + (high - low) / 2
    if offsets.getD middle 0 < index then search offsets index (middle + 1) high
    else search offsets index low middle
  else low
termination_by high - low

/-- The number of the list that has the index, counted from 0, and the index in that list. It is the last
list whose offset is below the index, so that no list without parameters is found. -/
def locate (r : RoutedLists) (index : Nat) : Except BindError (Nat × Nat) :=
  if index = 0 ∨ r.total < index then .error (.indexOutOfRange index r.total)
  else
    let number := search r.offsets index 0 r.offsets.length - 1
    .ok (number, index - r.offsets.getD number 0)

def update (r : RoutedLists) (index : Nat)
    (change : ParameterList → Nat → Except BindError ParameterList) : Except BindError RoutedLists := do
  let (number, index) ← r.locate index
  return { r with lists := r.lists.set number (← change (r.lists.getD number []) index) }

def read {α : Type} (r : RoutedLists) (index : Nat)
    (view : ParameterList → Nat → Except BindError α) : Except BindError α := do
  let (number, index) ← r.locate index
  view (r.lists.getD number []) index

def global (r : RoutedLists) (number : Nat) (e : BindError) : BindError :=
  e.raise (r.offsets.getD number 0)

def readRaised {α : Type} (r : RoutedLists) (index : Nat)
    (view : ParameterList → Nat → Except BindError α) : Except BindError α := do
  let (number, index) ← r.locate index
  (view (r.lists.getD number []) index).mapError (r.global number)

def bind (r : RoutedLists) (index : Nat) (value : Value) (oid : Oid) : Except BindError RoutedLists :=
  r.update index fun list index => list.bind index value oid

def bindEncoded (r : RoutedLists) (index : Nat) (encoded : Encoded) : Except BindError RoutedLists :=
  r.update index fun list index => list.bindEncoded index encoded

def bindNull (r : RoutedLists) (index : Nat) (oid : Oid) : Except BindError RoutedLists :=
  r.update index fun list index => list.bindNull index oid

def markOutput (r : RoutedLists) (index : Nat) : Except BindError RoutedLists :=
  r.update index fun list index => list.markOutput index

def setResolvedType (r : RoutedLists) (index : Nat) (found : Oid) : Except BindError RoutedLists :=
  r.update index fun list index => list.setResolvedType index found

def wireLength (r : RoutedLists) (index : Nat) : Except BindError Int :=
  r.readRaised index ParameterList.wireLength

def serialize (r : RoutedLists) (index : Nat) : Except BindError Bytes :=
  r.readRaised index ParameterList.serialize

def literal (r : RoutedLists) (index : Nat) (caps : Capabilities) : Except BindError Text :=
  r.read index fun list index => list.literal index caps

def checkAllSet (r : RoutedLists) : Except BindError Unit :=
  r.lists.zipIdx.forM fun (list, number) => list.checkAllSet.mapError (r.global number)

def oids (r : RoutedLists) : List Oid := r.lists.flatMap ParameterList.oids

def hasUnresolvedTypes (r : RoutedLists) : Bool := r.lists.any ParameterList.hasUnresolvedTypes

def inCount (r : RoutedLists) : Nat := (r.lists.map ParameterList.inCount).foldr (· + ·) 0

def outCount (r : RoutedLists) : Nat := max ((r.lists.map ParameterList.outCount).foldr (· + ·) 0) 1

def clear (r : RoutedLists) : RoutedLists := { r with lists := r.lists.map ParameterList.clear }

def replace (r other : RoutedLists) : Except BindError RoutedLists :=
  if r.offsets ≠ other.offsets ∨ r.total ≠ other.total then .error .incompatible
  else .ok { r with lists := other.lists }

end RoutedLists

def CompositeParameters.locate (lists : CompositeParameters) (index : Nat) :
    Except BindError (Nat × Nat) :=
  (RoutedLists.ofLists lists).locate index

inductive Parameters where
  | single (list : ParameterList)
  | composite (lists : CompositeParameters)
  deriving DecidableEq, Repr

namespace Parameters

def ofRouted (r : RoutedLists) : Parameters := .composite r.lists

def count : Parameters → Nat
  | .single list => list.length
  | .composite lists => (RoutedLists.ofLists lists).total

def bind (ps : Parameters) (index : Nat) (value : Value) (oid : Oid) : Except BindError Parameters :=
  match ps with
  | .single list => (list.bind index value oid).map .single
  | .composite lists => ((RoutedLists.ofLists lists).bind index value oid).map ofRouted

def bindEncoded (ps : Parameters) (index : Nat) (encoded : Encoded) : Except BindError Parameters :=
  match ps with
  | .single list => (list.bindEncoded index encoded).map .single
  | .composite lists => ((RoutedLists.ofLists lists).bindEncoded index encoded).map ofRouted

def bindValue {α : Type} [Encode α] (ps : Parameters) (index : Nat) (value : α) :
    Except BindError Parameters :=
  bindEncoded ps index (Encode.encode value)

def bindNull (ps : Parameters) (index : Nat) (oid : Oid) : Except BindError Parameters :=
  match ps with
  | .single list => (list.bindNull index oid).map .single
  | .composite lists => ((RoutedLists.ofLists lists).bindNull index oid).map ofRouted

def markOutput (ps : Parameters) (index : Nat) : Except BindError Parameters :=
  match ps with
  | .single list => (list.markOutput index).map .single
  | .composite lists => ((RoutedLists.ofLists lists).markOutput index).map ofRouted

def setResolvedType (ps : Parameters) (index : Nat) (found : Oid) : Except BindError Parameters :=
  match ps with
  | .single list => (list.setResolvedType index found).map .single
  | .composite lists => ((RoutedLists.ofLists lists).setResolvedType index found).map ofRouted

def wireLength (ps : Parameters) (index : Nat) : Except BindError Int :=
  match ps with
  | .single list => list.wireLength index
  | .composite lists => (RoutedLists.ofLists lists).wireLength index

def serialize (ps : Parameters) (index : Nat) : Except BindError Bytes :=
  match ps with
  | .single list => list.serialize index
  | .composite lists => (RoutedLists.ofLists lists).serialize index

def literal (ps : Parameters) (index : Nat) (caps : Capabilities) : Except BindError Text :=
  match ps with
  | .single list => list.literal index caps
  | .composite lists => (RoutedLists.ofLists lists).literal index caps

def checkAllSet : Parameters → Except BindError Unit
  | .single list => list.checkAllSet
  | .composite lists => (RoutedLists.ofLists lists).checkAllSet

def oids : Parameters → List Oid
  | .single list => list.oids
  | .composite lists => (RoutedLists.ofLists lists).oids

def hasUnresolvedTypes : Parameters → Bool
  | .single list => list.hasUnresolvedTypes
  | .composite lists => (RoutedLists.ofLists lists).hasUnresolvedTypes

def inCount : Parameters → Nat
  | .single list => list.inCount
  | .composite lists => (RoutedLists.ofLists lists).inCount

def outCount : Parameters → Nat
  | .single list => list.outCount
  | .composite lists => (RoutedLists.ofLists lists).outCount

def clear : Parameters → Parameters
  | .single list => .single list.clear
  | .composite lists => ofRouted (RoutedLists.ofLists lists).clear

def merge : (ps other : Parameters) → Except BindError Parameters
  | .single list, .single other => (list.merge other).map .single
  | _, _ => .error .incompatible

def replace : (ps other : Parameters) → Except BindError Parameters
  | .single _, .single other => .ok (.single other)
  | .composite lists, .composite other =>
    ((RoutedLists.ofLists lists).replace (.ofLists other)).map ofRouted
  | _, _ => .error .incompatible

/-- Binds values from the first parameter on, leaving out those that are not given, up to the first one
that is refused. The parameters that were bound before it stay bound. -/
def bindAll (ps : Parameters) (values : List (Option Encoded)) : Parameters × Except BindError Unit :=
  (values.zipIdx 1).foldl (fun (ps, outcome) (value, index) =>
    match outcome, value with
    | .ok (), some encoded =>
      match ps.bindEncoded index encoded with
      | .ok ps => (ps, .ok ())
      | .error e => (ps, .error e)
    | _, _ => (ps, outcome)) (ps, .ok ())

end Parameters

end ExtendedQuery
