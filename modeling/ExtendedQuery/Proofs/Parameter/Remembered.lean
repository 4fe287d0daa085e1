import ExtendedQuery.Proofs.Parameter.Contents
import ExtendedQuery.Proofs.Parameter.Missing

/-!
# Parameters with remembered encodings

The bytes of a text are made when they are first asked for and stay beside the parameter (`CachedParameter`)
until it is bound again. Lists of such parameters are changed in place: what a refused call has done to a list
stays done. Main statement: `CachedList.run_agrees`, apart from what is remembered each call does what it does to
a plain list, and it fails as the plain call does. It rests on `CachedParameter.Sound`, what is remembered is the
encoding of the text that the parameter holds now.
-/

namespace ExtendedQuery

/-! ## Sound parameters -/

namespace Parameter

structure Sound (p : Parameter) : Prop where
  unbound_iff : p.slot = .unbound ↔ p.direction = .unset
  output : p.direction = .output → p.slot = .null ∧ p.oid = Oid.void ∧ p.format = .text
  format : ∀ v, p.slot = .value v → p.format = v.format

variable {p : Parameter}

theorem Shows.sound {content : Content} (shown : p.Shows content) (void : p.direction = .output → p.oid = Oid.void) :
    p.Sound := by
  obtain ⟨slot, format, unset, output⟩ := shown
  constructor
  · rw [slot, unset]
    cases content <;> simp [Content.slot]
  · intro isOutput
    obtain rfl := output isOutput
    exact ⟨slot, void isOutput, format⟩
  · intro v held
    rw [slot] at held
    cases content with
    | value w =>
      cases held
      rw [format, Content.format_slot]
    | _ => cases held

theorem unbound_sound : unbound.Sound := by
  apply unbound_shows.sound
  intro output
  cases output

theorem bind_sound (p : Parameter) (value : Value) (oid : Oid) : (p.bind value oid).Sound := by
  apply (p.bind_shows value oid).sound
  intro output
  rcases p.direction.withInput_cases with input | input <;> simp [bind, input] at output

theorem bindNull_sound (p : Parameter) (oid : Oid) (format : Format) : (p.bindNull oid format).Sound := by
  apply (p.bindNull_shows oid format).sound
  intro output
  rcases p.direction.withInput_cases with input | input <;> simp [bindNull, input] at output

theorem Sound.markOutput (sound : p.Sound) : p.markOutput.Sound := by
  obtain ⟨slot, oid, direction, format⟩ := p
  cases direction with
  | unset | output =>
    refine ⟨by simp [Parameter.markOutput, Direction.withOutput], fun _ => ⟨rfl, rfl, rfl⟩, ?_⟩
    intro v held
    cases held
  | input | both =>
    have bound : slot ≠ .unbound := by
      intro same
      cases sound.unbound_iff.1 same
    refine ⟨by simp [Parameter.markOutput, Direction.withOutput, bound], ?_, sound.format⟩
    intro output
    cases output

theorem Sound.resolve (sound : p.Sound) (found : Oid) : (p.resolve found).Sound := by
  refine ⟨sound.unbound_iff, ?_, sound.format⟩
  intro output
  obtain ⟨slot, oid, format⟩ := sound.output output
  have kept : p.oid.orElse found = Oid.void := by
    rw [oid]
    rfl
  exact ⟨slot, kept, format⟩

end Parameter

/-! ## Changes of one parameter -/

inductive Change where
  | operation (op : ListOperation)
  | bindNullFor (oid : Oid) (caps : Capabilities)

namespace Change

variable {change : Change} {index : Nat} {p p' : Parameter}

def onList (change : Change) (list : ParameterList) (index : Nat) : Except BindError ParameterList :=
  match change with
  | .operation op => op.onList list index
  | .bindNullFor oid caps => list.bindNullFor index oid caps

def apply (change : Change) (index : Nat) (p : Parameter) : Except BindError Parameter :=
  match change with
  | .operation op => op.change index p
  | .bindNullFor oid caps => .ok (p.bindNull oid (if caps.sendsBinary oid then .binary else .text))

/-- Binding forgets what is remembered, marking an output and resolving a type do not. -/
def binds : Change → Bool
  | .operation .markOutput | .operation (.setResolvedType _) => false
  | _ => true

theorem onList_eq (change : Change) (list : ParameterList) (index : Nat) :
    change.onList list index = list.update index (change.apply index) := by
  cases change with
  | operation op => exact op.onList_eq list index
  | bindNullFor oid caps => rfl

inductive Makes (p : Parameter) : Change → Parameter → Prop
  | bind (value : Value) (oid : Oid) : Makes p (.operation (.bind value oid)) (p.bind value oid)
  | bindValue (value : Value) (oid : Oid) : Makes p (.operation (.bindEncoded ⟨some value, oid⟩)) (p.bind value oid)
  | bindNone (oid : Oid) : Makes p (.operation (.bindEncoded ⟨none, oid⟩)) (p.bindNull oid .text)
  | bindNull (oid : Oid) : Makes p (.operation (.bindNull oid)) (p.bindNull oid .text)
  | bindNullFor (oid : Oid) (caps : Capabilities) :
      Makes p (.bindNullFor oid caps) (p.bindNull oid (if caps.sendsBinary oid then .binary else .text))
  | markOutput : Makes p (.operation .markOutput) p.markOutput
  | resolve {found : Oid} : p.oid = Oid.unspecified ∨ p.oid = found →
      Makes p (.operation (.setResolvedType found)) (p.resolve found)

theorem makes_of_apply (done : change.apply index p = .ok p') : Makes p change p' := by
  cases change with
  | bindNullFor oid caps =>
    cases done
    exact .bindNullFor oid caps
  | operation op =>
    cases op with
    | bind value oid =>
      cases done
      exact .bind value oid
    | bindEncoded encoded =>
      obtain ⟨value, oid⟩ := encoded
      cases value with
      | none =>
        cases done
        exact .bindNone oid
      | some value =>
        cases done
        exact .bindValue value oid
    | bindNull oid =>
      cases done
      exact .bindNull oid
    | markOutput =>
      cases done
      exact .markOutput
    | setResolvedType found =>
      unfold apply ListOperation.change at done
      dsimp only at done
      split at done
      · rename_i accepts
        cases done
        exact .resolve accepts
      · cases done

theorem Makes.sound (makes : Makes p change p') (sound : p.Sound) : p'.Sound := by
  cases makes with
  | bind value oid | bindValue value oid => exact p.bind_sound value oid
  | bindNone | bindNull | bindNullFor => exact p.bindNull_sound _ _
  | markOutput => exact sound.markOutput
  | resolve => exact sound.resolve _

theorem Makes.keeps (makes : Makes p change p') (sound : p.Sound) (unread : change.binds = false) {v : Value}
    (held : p.slot = .value v) : p'.slot = .value v := by
  cases makes with
  | bind | bindValue | bindNone | bindNull | bindNullFor => cases unread
  | resolve => exact held
  | markOutput =>
    obtain ⟨slot, oid, direction, format⟩ := p
    obtain rfl : slot = .value v := held
    cases direction with
    | unset => cases sound.unbound_iff.2 rfl
    | output => cases (sound.output rfl).1
    | input | both => rfl

theorem apply_unbound (change : Change) (index : Nat) : ∃ p, change.apply index .unbound = .ok p := by
  cases change with
  | bindNullFor oid caps => exact ⟨_, rfl⟩
  | operation op =>
    cases op with
    | bindEncoded encoded =>
      obtain ⟨value, oid⟩ := encoded
      cases value <;> exact ⟨_, rfl⟩
    | _ => exact ⟨_, rfl⟩

theorem inside_of_refused {α : Type} {list : List α} {fresh : α} (view : α → Parameter)
    (untouched : view fresh = .unbound) {i : Nat} {e : BindError}
    (refused : change.apply index (view (list.getD i fresh)) = .error e) : i < list.length := by
  by_contra outside
  obtain ⟨p, applied⟩ := change.apply_unbound index
  rw [List.getD_eq_default _ _ (Nat.not_lt.1 outside), untouched, applied] at refused
  cases refused

end Change

/-! ## Results -/

theorem map_eq_error {α β ε : Type} {result : Except ε α} {f : α → β} {e : ε} :
    result.map f = .error e ↔ result = .error e := by
  cases result <;> simp [Except.map]

theorem map_map_result {α β γ ε : Type} (result : Except ε α) (f : α → β) (g : β → γ) :
    (result.map f).map g = result.map (g ∘ f) := by
  cases result <;> rfl

/-! ## One parameter -/

structure WireValue where
  size : Int
  bytes : Bytes
  deriving DecidableEq, Repr

def WireValue.ofSize (size : Int) : Option Bytes → WireValue
  | some bytes => ⟨size, bytes⟩
  | none => ⟨-1, []⟩

def WireValue.ofBytes (bytes : Option Bytes) : WireValue := ofSize (announcedLength bytes) bytes

/-- A parameter, with the bytes of its text once they were asked for. -/
structure CachedParameter where
  parameter : Parameter
  encoded : Option Bytes
  deriving DecidableEq, Repr

namespace CachedParameter

def unbound : CachedParameter := ⟨.unbound, none⟩

def change (c : CachedParameter) (change : Change) (index : Nat) : Except BindError CachedParameter :=
  (change.apply index c.parameter).map fun p => ⟨p, if change.binds then none else c.encoded⟩

def bytes? (c : CachedParameter) : Option Bytes × CachedParameter :=
  match c.parameter.slot with
  | .value (.binary bytes) => (some bytes, c)
  | .value (.text s) =>
    let bytes := c.encoded.getD (Bytes.ofString s)
    (some bytes, { c with encoded := some bytes })
  | .unbound | .null => (none, c)

def wireLength (index : Nat) (c : CachedParameter) : Except BindError Int × CachedParameter :=
  match c.parameter.slot with
  | .unbound => (.error (.unbound index), c)
  | .null => (.ok (-1), c)
  | .value _ =>
    let (bytes, c) := c.bytes?
    let length := (bytes.getD []).length
    (if Parameter.maxValueLength < length then .error (.valueTooLarge index length) else .ok length, c)

/-- The length is asked for first, and the bytes only if it is one. -/
def withBytes {α : Type} (view : Int → Option Bytes → α) (index : Nat) (c : CachedParameter) :
    Except BindError α × CachedParameter :=
  match c.wireLength index with
  | (.error e, c) => (.error e, c)
  | (.ok size, c) =>
    let (bytes, c) := c.bytes?
    (.ok (view size bytes), c)

def serialize : (index : Nat) → CachedParameter → Except BindError Bytes × CachedParameter :=
  withBytes fun _ bytes => bytes.getD []

def wireValue : (index : Nat) → CachedParameter → Except BindError WireValue × CachedParameter :=
  withBytes WireValue.ofSize

structure Sound (c : CachedParameter) : Prop where
  parameter : c.parameter.Sound
  encoded : ∀ bytes, c.encoded = some bytes → ∃ s, c.parameter.slot = .value (.text s) ∧ bytes = Bytes.ofString s

variable {c c' : CachedParameter}

theorem unbound_sound : unbound.Sound := by
  refine ⟨Parameter.unbound_sound, ?_⟩
  intro bytes remembered
  cases remembered

theorem change_sound {change : Change} {index : Nat} (sound : c.Sound) (done : c.change change index = .ok c') :
    c'.Sound := by
  obtain ⟨p, applied, rfl⟩ := map_eq_ok.1 done
  constructor
  · exact (Change.makes_of_apply applied).sound sound.parameter
  · intro bytes remembered
    cases binds : change.binds with
    | true => simp [binds] at remembered
    | false =>
      simp only [binds, Bool.false_eq_true, if_false] at remembered
      obtain ⟨s, held, rfl⟩ := sound.encoded bytes remembered
      exact ⟨s, (Change.makes_of_apply applied).keeps sound.parameter binds held, rfl⟩

/-! ## Reading one parameter -/

structure Reads {α : Type} (c : CachedParameter) (r : α × CachedParameter) (expected : α) : Prop where
  result : r.1 = expected
  parameter : r.2.parameter = c.parameter
  sound : r.2.Sound

theorem Sound.encoded_getD (sound : c.Sound) {s : String} (slot : c.parameter.slot = .value (.text s)) :
    c.encoded.getD (Bytes.ofString s) = Bytes.ofString s := by
  cases remembered : c.encoded with
  | none => rfl
  | some bytes =>
    obtain ⟨s', held, rfl⟩ := sound.encoded bytes remembered
    rw [slot] at held
    cases held
    rfl

theorem Sound.bytes? (sound : c.Sound) : Reads c c.bytes? c.parameter.bytes? := by
  unfold CachedParameter.bytes? Parameter.bytes?
  cases slot : c.parameter.slot with
  | unbound | null => exact ⟨rfl, rfl, sound⟩
  | value v =>
    cases v with
    | binary bytes => exact ⟨rfl, rfl, sound⟩
    | text s =>
      have current := sound.encoded_getD slot
      refine ⟨congrArg some current, rfl, sound.parameter, ?_⟩
      intro bytes remembered
      cases remembered
      exact ⟨s, slot, current⟩

theorem Sound.wireLength (sound : c.Sound) (index : Nat) :
    Reads c (c.wireLength index) ((c.parameter.wireValue index).map announcedLength) := by
  have reads := sound.bytes?
  unfold Parameter.bytes? at reads
  unfold CachedParameter.wireLength Parameter.wireValue
  cases slot : c.parameter.slot with
  | unbound | null => exact ⟨rfl, rfl, sound⟩
  | value v =>
    rw [slot] at reads
    refine ⟨?_, reads.parameter, reads.sound⟩
    dsimp only
    rw [reads.result, Option.getD_some]
    split <;> rfl

theorem bytes?_of_wireValue {p : Parameter} {index : Nat} {bytes : Option Bytes}
    (wire : p.wireValue index = .ok bytes) : p.bytes? = bytes := by
  unfold Parameter.wireValue at wire
  unfold Parameter.bytes?
  cases slot : p.slot with
  | unbound =>
    rw [slot] at wire
    cases wire
  | null =>
    rw [slot] at wire
    cases wire
    rfl
  | value v =>
    rw [slot] at wire
    dsimp only at wire
    split at wire
    · cases wire
    · cases wire
      rfl

theorem Sound.withBytes {α : Type} (sound : c.Sound) (view : Int → Option Bytes → α) (index : Nat) :
    Reads c (c.withBytes view index)
      ((c.parameter.wireValue index).map fun bytes => view (announcedLength bytes) bytes) := by
  have length := sound.wireLength index
  unfold CachedParameter.withBytes
  generalize c.wireLength index = r at length ⊢
  obtain ⟨outcome, d⟩ := r
  obtain ⟨result, parameter, sound'⟩ := length
  cases wire : c.parameter.wireValue index with
  | error e =>
    rw [wire] at result
    cases result
    exact ⟨rfl, parameter, sound'⟩
  | ok bytes =>
    rw [wire] at result
    cases result
    have reads := sound'.bytes?
    have own : d.parameter.bytes? = bytes := by rw [parameter, bytes?_of_wireValue wire]
    refine ⟨?_, reads.parameter.trans parameter, reads.sound⟩
    dsimp only [Except.map]
    rw [reads.result, own]

theorem Sound.serialize (sound : c.Sound) (index : Nat) :
    Reads c (c.serialize index) ((c.parameter.wireValue index).map (·.getD [])) :=
  sound.withBytes _ index

theorem Sound.wireValue (sound : c.Sound) (index : Nat) :
    Reads c (c.wireValue index) ((c.parameter.wireValue index).map WireValue.ofBytes) :=
  sound.withBytes WireValue.ofSize index

end CachedParameter

/-! ## Lists in place -/

abbrev CachedList := List CachedParameter

namespace CachedList

def plain (list : CachedList) : ParameterList := list.map (·.parameter)

def ofCount (count : Nat) : CachedList := List.replicate count .unbound

def growTo (list : CachedList) (count : Nat) : CachedList := list ++ ofCount (count - list.length)

/-- Changes the parameter at an index. The list is made long enough for the index before the change is tried. -/
def change (list : CachedList) (change : Change) (index : Nat) : Except BindError Unit × CachedList :=
  match index with
  | 0 => (.error (.indexOutOfRange 0 list.length), list)
  | i + 1 =>
    if maxParameters < i + 1 then (.error (.tooManyParameters (i + 1)), list)
    else
      let grown := list.growTo (i + 1)
      match (grown.getD i .unbound).change change (i + 1) with
      | .ok c => (.ok (), grown.set i c)
      | .error e => (.error e, grown)

/-- Looks at the parameter at an index, which may remember more afterwards. -/
def read {α : Type} (list : CachedList) (index : Nat)
    (view : Nat → CachedParameter → Except BindError α × CachedParameter) : Except BindError α × CachedList :=
  match index with
  | 0 => (.error (.indexOutOfRange 0 list.length), list)
  | i + 1 =>
    match list[i]? with
    | none => (.error (.indexOutOfRange (i + 1) list.length), list)
    | some c =>
      let (outcome, c) := view (i + 1) c
      (outcome, list.set i c)

def wireLength (list : CachedList) (index : Nat) : Except BindError Int × CachedList :=
  list.read index CachedParameter.wireLength

def serialize (list : CachedList) (index : Nat) : Except BindError Bytes × CachedList :=
  list.read index CachedParameter.serialize

def wireValue (list : CachedList) (index : Nat) : Except BindError WireValue × CachedList :=
  list.read index CachedParameter.wireValue

def wireValuesFrom (index : Nat) : CachedList → Except BindError (List WireValue) × CachedList
  | [] => (.ok [], [])
  | c :: later =>
    match c.wireValue index with
    | (.error e, c) => (.error e, c :: later)
    | (.ok value, c) =>
      let (values, later) := wireValuesFrom (index + 1) later
      (values.map (value :: ·), c :: later)

def wireValues (list : CachedList) : Except BindError (List WireValue) × CachedList := wireValuesFrom 1 list

def merge (list other : CachedList) : Except BindError Unit × CachedList :=
  let count := list.length + other.length
  if maxParameters < count then (.error (.tooManyParameters count), list) else (.ok (), list ++ other)

def clear (list : CachedList) : CachedList := ofCount list.length

def resize (list : CachedList) (count : Nat) : CachedList := (list.growTo count).take count

/-! ## Calls -/

inductive Call where
  | alter (change : Change) (index : Nat)
  | merge (other : CachedList)
  | replace (other : CachedList)
  | clear
  | resize (count : Nat)
  | wireLength (index : Nat)
  | serialize (index : Nat)
  | wireValue (index : Nat)
  | wireValues

namespace Call

def withoutResult {α : Type} (r : Except BindError α × CachedList) : Except BindError Unit × CachedList :=
  (r.1.map fun _ => (), r.2)

def run (call : Call) (list : CachedList) : Except BindError Unit × CachedList :=
  match call with
  | .alter change index => list.change change index
  | .merge other => list.merge other
  | .replace other => (.ok (), other)
  | .clear => (.ok (), list.clear)
  | .resize count => (.ok (), list.resize count)
  | .wireLength index => withoutResult (list.wireLength index)
  | .serialize index => withoutResult (list.serialize index)
  | .wireValue index => withoutResult (list.wireValue index)
  | .wireValues => withoutResult list.wireValues

def onPlain (call : Call) (list : ParameterList) : Except BindError ParameterList :=
  match call with
  | .alter change index => change.onList list index
  | .merge other => list.merge other.plain
  | .replace other => .ok other.plain
  | .clear => .ok list.clear
  | .resize count => .ok (list.resize count)
  | .wireLength index => (list.wireLength index).map fun _ => list
  | .serialize index => (list.serialize index).map fun _ => list
  | .wireValue index => (list.wireValue index).map fun _ => list
  | .wireValues => list.wireValues.map fun _ => list

def other? : Call → Option CachedList
  | .merge other | .replace other => some other
  | _ => none

end Call

/-- The lists that calls can make of new ones. -/
inductive Reached : CachedList → Prop
  | ofCount (count : Nat) : Reached (ofCount count)
  | call {list : CachedList} (call : Call) : Reached list → (∀ other ∈ call.other?, Reached other) →
      Reached (call.run list).2

/-! ## Plain lists -/

def Sound (list : CachedList) : Prop := ∀ c ∈ list, c.Sound

variable {list other : CachedList}

@[simp] theorem length_plain (list : CachedList) : list.plain.length = list.length := by simp [plain]

@[simp] theorem plain_append (list other : CachedList) : (list ++ other).plain = list.plain ++ other.plain := by
  simp [plain]

@[simp] theorem plain_ofCount (count : Nat) : (ofCount count).plain = ParameterList.ofCount count := by
  simp [plain, ofCount, ParameterList.ofCount, CachedParameter.unbound]

@[simp] theorem plain_growTo (list : CachedList) (count : Nat) :
    (list.growTo count).plain = list.plain.growTo count := by
  simp [growTo, ParameterList.growTo]

theorem plain_cons (c : CachedParameter) (list : CachedList) : plain (c :: list) = c.parameter :: list.plain := rfl

theorem plain_set (list : CachedList) (i : Nat) (c : CachedParameter) :
    plain (list.set i c) = list.plain.set i c.parameter := by
  simp [plain, List.map_set]

theorem plain_getD (list : CachedList) (i : Nat) :
    (list.getD i .unbound).parameter = list.plain.getD i .unbound := by
  simp only [List.getD, plain, List.getElem?_map]
  cases list[i]? <;> rfl

theorem ofCount_sound (count : Nat) : (ofCount count).Sound := by
  intro c member
  rw [List.eq_of_mem_replicate member]
  exact CachedParameter.unbound_sound

theorem Sound.append (sound : list.Sound) (sound' : other.Sound) : (list ++ other).Sound := by
  intro c member
  rcases List.mem_append.1 member with member | member
  · exact sound c member
  · exact sound' c member

theorem Sound.growTo (sound : list.Sound) (count : Nat) : (list.growTo count).Sound :=
  sound.append (ofCount_sound _)

theorem Sound.set (sound : list.Sound) {c : CachedParameter} (changed : c.Sound) (i : Nat) :
    Sound (list.set i c) := by
  intro d member
  rcases List.mem_or_eq_of_mem_set member with member | rfl
  · exact sound d member
  · exact changed

theorem resize_sound (sound : list.Sound) (count : Nat) : (list.resize count).Sound := fun c member =>
  sound.growTo count c (List.mem_of_mem_take member)

/-! ## Reading -/

/-- The answer is the one of the plain list, and nothing but what is remembered changes. -/
structure Reads {α : Type} (list : CachedList) (r : α × CachedList) (expected : α) : Prop where
  result : r.1 = expected
  plain : r.2.plain = list.plain
  sound : r.2.Sound

theorem plain_getElem? (list : CachedList) (i : Nat) : list.plain[i]? = list[i]?.map (·.parameter) := by
  simp [plain]

theorem Sound.read {α : Type} (sound : list.Sound) {f : Option Bytes → α}
    {view : Nat → CachedParameter → Except BindError α × CachedParameter}
    (reads : ∀ (c : CachedParameter) index, c.Sound →
      c.Reads (view index c) ((c.parameter.wireValue index).map f)) (index : Nat) :
    Reads list (list.read index view) ((ParameterList.wireValue list.plain index).map f) := by
  cases index with
  | zero =>
    refine ⟨?_, rfl, sound⟩
    rw [ParameterList.wireValue, ParameterList.get, length_plain]
    rfl
  | succ i =>
    rw [ParameterList.wireValue, ParameterList.get, plain_getElem?, length_plain]
    dsimp only [CachedList.read]
    cases found : list[i]? with
    | none => exact ⟨rfl, rfl, sound⟩
    | some c =>
      obtain ⟨inside, rfl⟩ := List.getElem?_eq_some_iff.1 found
      have own := reads list[i] (i + 1) (sound _ (List.getElem_mem inside))
      refine ⟨own.result, ?_, sound.set own.sound i⟩
      dsimp only
      rw [plain_set, own.parameter, ← plain_set, List.set_getElem_self]

theorem Sound.wireLength (sound : list.Sound) (index : Nat) :
    Reads list (list.wireLength index) (ParameterList.wireLength list.plain index) :=
  sound.read (fun _ index sound => sound.wireLength index) index

theorem Sound.serialize (sound : list.Sound) (index : Nat) :
    Reads list (list.serialize index) (ParameterList.serialize list.plain index) :=
  sound.read (fun _ index sound => sound.serialize index) index

theorem Sound.wireValue (sound : list.Sound) (index : Nat) :
    Reads list (list.wireValue index) ((ParameterList.wireValue list.plain index).map WireValue.ofBytes) :=
  sound.read (fun _ index sound => sound.wireValue index) index

theorem Sound.wireValuesFrom (sound : list.Sound) (index : Nat) :
    Reads list (list.wireValuesFrom index)
      (((list.plain.zipIdx index).mapM fun entry => Parameter.wireValue entry.2 entry.1).map
        (List.map WireValue.ofBytes)) := by
  induction list generalizing index with
  | nil => exact ⟨rfl, rfl, sound⟩
  | cons c later ih =>
    have first := (sound c (by simp)).wireValue index
    have others := ih (fun d member => sound d (by simp [member])) (index + 1)
    rw [plain_cons, List.zipIdx_cons, List.mapM_cons]
    unfold CachedList.wireValuesFrom
    generalize c.wireValue index = r at first ⊢
    obtain ⟨outcome, d⟩ := r
    obtain ⟨result, parameter, sound'⟩ := first
    dsimp only at result parameter sound' ⊢
    cases wire : c.parameter.wireValue index with
    | error e =>
      rw [wire] at result
      subst result
      refine ⟨rfl, ?_, ?_⟩
      · change plain (d :: later) = plain (c :: later)
        rw [plain_cons, parameter, plain_cons]
      · exact List.forall_mem_cons.2 ⟨sound', fun d member => sound d (by simp [member])⟩
    | ok bytes =>
      rw [wire] at result
      subst result
      generalize CachedList.wireValuesFrom (index + 1) later = r at others ⊢
      obtain ⟨outcome, later'⟩ := r
      obtain ⟨result, same, sounds⟩ := others
      dsimp only at result same sounds ⊢
      subst result
      refine ⟨?_, ?_, ?_⟩
      · cases List.mapM (fun entry => Parameter.wireValue entry.2 entry.1) ((plain later).zipIdx (index + 1)) <;> rfl
      · change plain (d :: later') = plain (c :: later)
        rw [plain_cons, parameter, same, plain_cons]
      · exact List.forall_mem_cons.2 ⟨sound', sounds⟩

theorem Sound.wireValues (sound : list.Sound) :
    Reads list list.wireValues (list.plain.wireValues.map (List.map WireValue.ofBytes)) :=
  sound.wireValuesFrom 1

/-! ## Changing -/

/-- The call does to the list what the plain call does, and it fails as that one does. -/
structure Agrees (list : CachedList) (r : Except BindError Unit × CachedList)
    (expected : Except BindError ParameterList) : Prop where
  result : r.1 = expected.map fun _ => ()
  plain : r.2.plain = expected.toOption.getD list.plain
  sound : r.2.Sound

theorem Sound.getD (sound : list.Sound) (i : Nat) : (list.getD i .unbound).Sound := by
  rw [List.getD]
  cases found : list[i]? with
  | none => exact CachedParameter.unbound_sound
  | some c => exact sound c (List.mem_of_getElem? found)

theorem growTo_of_refused {change : Change} {i : Nat} {e : BindError}
    (refused : change.apply (i + 1) ((list.growTo (i + 1)).getD i .unbound).parameter = .error e) :
    list.growTo (i + 1) = list := by
  rw [growTo, ofCount, getD_append_fresh] at refused
  have inside := Change.inside_of_refused CachedParameter.parameter rfl refused
  rw [growTo, Nat.sub_eq_zero_of_le inside]
  exact List.append_nil list

theorem Sound.change (sound : list.Sound) (change : Change) (index : Nat) :
    Agrees list (list.change change index) (change.onList list.plain index) := by
  rw [change.onList_eq]
  cases index with
  | zero => exact ⟨by rw [ParameterList.update, length_plain]; rfl, rfl, sound⟩
  | succ i =>
    unfold CachedList.change ParameterList.update
    by_cases many : maxParameters < i + 1
    · simp only [if_pos many]
      exact ⟨rfl, rfl, sound⟩
    · simp only [if_neg many]
      have grown := sound.growTo (i + 1)
      rw [← plain_growTo, ← plain_getD]
      cases changed : ((list.growTo (i + 1)).getD i .unbound).change change (i + 1) with
      | ok c =>
        have own := CachedParameter.change_sound (grown.getD i) changed
        obtain ⟨p, applied, rfl⟩ := map_eq_ok.1 changed
        rw [applied]
        exact ⟨rfl, by rw [plain_set]; rfl, grown.set own i⟩
      | error e =>
        have refused := map_eq_error.1 changed
        rw [refused, growTo_of_refused refused]
        exact ⟨rfl, rfl, sound⟩

theorem Reads.agrees {α : Type} {r : Except BindError α × CachedList} {expected : Except BindError α}
    (reads : Reads list r expected) : Agrees list (Call.withoutResult r) (expected.map fun _ => list.plain) := by
  refine ⟨?_, ?_, reads.sound⟩
  · rw [Call.withoutResult, reads.result]
    cases expected <;> rfl
  · rw [Call.withoutResult, reads.plain]
    cases expected <;> rfl

theorem run_agrees (sound : list.Sound) (call : Call) (others : ∀ other ∈ call.other?, other.Sound) :
    Agrees list (call.run list) (call.onPlain list.plain) := by
  cases call with
  | alter change index => exact sound.change change index
  | merge other =>
    simp only [Call.run, Call.onPlain, CachedList.merge, ParameterList.merge, length_plain]
    split
    · exact ⟨rfl, rfl, sound⟩
    · exact ⟨rfl, plain_append list other, sound.append (others other rfl)⟩
  | replace other => exact ⟨rfl, rfl, others other rfl⟩
  | clear =>
    refine ⟨rfl, ?_, ofCount_sound _⟩
    change plain (ofCount list.length) = ParameterList.ofCount list.plain.length
    rw [plain_ofCount, length_plain]
  | resize count =>
    refine ⟨rfl, ?_, resize_sound sound count⟩
    change plain (list.resize count) = list.plain.resize count
    rw [CachedList.resize, ParameterList.resize, ← plain_growTo, plain, List.map_take]
    rfl
  | wireLength index => exact (sound.wireLength index).agrees
  | serialize index => exact (sound.serialize index).agrees
  | wireValue index =>
    have agrees := (sound.wireValue index).agrees
    rwa [map_map_result] at agrees
  | wireValues =>
    have agrees := sound.wireValues.agrees
    rwa [map_map_result] at agrees

theorem Reached.sound (reached : Reached list) : list.Sound := by
  induction reached with
  | ofCount count => exact ofCount_sound count
  | call call _ _ ih others => exact (run_agrees ih call others).sound

end CachedList

end ExtendedQuery
