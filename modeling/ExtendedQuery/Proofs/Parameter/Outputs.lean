import ExtendedQuery.Proofs.Parameter.Independent

/-!
# Outputs that are inputs too

A parameter that is bound and registered as an output is both, whichever comes first. Its type is the one that it
is bound with, but a NULL without a type keeps the type that it finds: `void` if the parameter was an output alone
before. Main statement: `CachedList.Reached.output_order`, the order makes a difference for such a NULL only.
-/

namespace ExtendedQuery

namespace Change

def keepsType : Change → Bool
  | .operation (.bindEncoded ⟨none, oid⟩) | .operation (.bindNull oid) | .bindNullFor oid _ =>
    oid == Oid.unspecified
  | _ => false

def oid : Change → Oid
  | .operation (.bind _ oid) | .operation (.bindNull oid) | .bindNullFor oid _ => oid
  | .operation (.bindEncoded encoded) => encoded.oid
  | _ => Oid.unspecified

def slot : Change → Slot
  | .operation (.bind value _) | .operation (.bindEncoded ⟨some value, _⟩) => .value value
  | _ => .null

def format : Change → Format
  | .operation (.bind value _) | .operation (.bindEncoded ⟨some value, _⟩) => value.format
  | .bindNullFor oid caps => if caps.sendsBinary oid then .binary else .text
  | _ => .text

def typeFrom (change : Change) (held : Oid) : Oid := if change.keepsType then held else change.oid

theorem apply_of_binds {change : Change} (binds : change.binds = true) (index : Nat) (p : Parameter) :
    change.apply index p =
      .ok ⟨change.slot, change.typeFrom p.oid, p.direction.withInput, change.format⟩ := by
  cases change with
  | bindNullFor oid caps => simp [apply, Parameter.bindNull, slot, typeFrom, keepsType, Change.oid, format]
  | operation op =>
    cases op with
    | bind value oid => rfl
    | bindEncoded encoded =>
      obtain ⟨value, oid⟩ := encoded
      cases value with
      | some value => rfl
      | none =>
        simp [apply, ListOperation.change, Parameter.bindNull, slot, typeFrom, keepsType, Change.oid, format]
    | bindNull oid =>
      simp [apply, ListOperation.change, Parameter.bindNull, slot, typeFrom, keepsType, Change.oid, format]
    | markOutput | setResolvedType => cases binds

/-- The NULL has no type, and the parameter has not had an input or an output yet. -/
structure KeepsVoid (binding : Change) (p : Parameter) : Prop where
  keepsType : binding.keepsType = true
  unset : p.direction = .unset
  other : p.oid ≠ Oid.void

instance (binding : Change) (p : Parameter) : Decidable (KeepsVoid binding p) :=
  decidable_of_iff (binding.keepsType = true ∧ p.direction = .unset ∧ p.oid ≠ Oid.void)
    ⟨fun ⟨keeps, unset, other⟩ => ⟨keeps, unset, other⟩, fun ⟨keeps, unset, other⟩ => ⟨keeps, unset, other⟩⟩

end Change

namespace Parameter

theorem direction_markOutput (p : Parameter) : p.markOutput.direction = p.direction.withOutput := by
  obtain ⟨slot, oid, direction, format⟩ := p
  cases direction <;> rfl

theorem markOutput_of_input {p : Parameter} {d : Direction} (input : p.direction = d.withInput) :
    p.markOutput = { p with direction := .both } := by
  unfold markOutput
  rw [input]
  cases d <;> rfl

theorem Sound.oid_markOutput {p : Parameter} (sound : p.Sound) :
    p.markOutput.oid = if p.direction = .unset then Oid.void else p.oid := by
  obtain ⟨slot, oid, direction, format⟩ := p
  cases direction with
  | unset => rfl
  | output => exact (sound.output rfl).2.1.symm
  | input | both => rfl

theorem Sound.typeFrom_markOutput {p : Parameter} (sound : p.Sound) (binding : Change) :
    binding.typeFrom p.markOutput.oid = if binding.KeepsVoid p then Oid.void else binding.typeFrom p.oid := by
  rw [sound.oid_markOutput]
  by_cases keepsVoid : binding.KeepsVoid p
  · rw [if_pos keepsVoid, if_pos keepsVoid.unset, Change.typeFrom, if_pos keepsVoid.keepsType]
  · rw [if_neg keepsVoid]
    unfold Change.typeFrom
    split
    · rename_i keepsType
      split
      · rename_i unset
        by_contra other
        exact keepsVoid ⟨keepsType, unset, Ne.symm other⟩
      · rfl
    · rfl

theorem Sound.typeFrom_eq_iff {p : Parameter} (sound : p.Sound) (binding : Change) :
    binding.typeFrom p.markOutput.oid = binding.typeFrom p.oid ↔ ¬ binding.KeepsVoid p := by
  rw [sound.typeFrom_markOutput]
  by_cases keepsVoid : binding.KeepsVoid p
  · rw [if_pos keepsVoid, Change.typeFrom, if_pos keepsVoid.keepsType]
    exact ⟨fun void => absurd void.symm keepsVoid.other, absurd keepsVoid⟩
  · rw [if_neg keepsVoid]
    exact ⟨fun _ => keepsVoid, fun _ => rfl⟩

end Parameter

theorem Direction.withInput_withOutput (d : Direction) : d.withOutput.withInput = .both := by cases d <;> rfl

namespace CachedList

variable {list : CachedList} {binding : Change} {i : Nat}

def withBoth (list : CachedList) (i : Nat) (binding : Change) (oid : Oid) : CachedList :=
  (list.growTo (i + 1)).set i ⟨⟨binding.slot, oid, .both, binding.format⟩, none⟩

def bothDone (i : Nat) : List (Nat × Except BindError Unit) := [(i + 1, .ok ()), (i + 1, .ok ())]

theorem lt_length_growTo (list : CachedList) (i : Nat) : i < (list.growTo (i + 1)).length := by
  rw [growTo, ofCount, List.length_append, List.length_replicate]
  omega

theorem perform_of_change {change : Change} {c : CachedParameter} (few : i + 1 ≤ maxParameters)
    (changed : (list.getD i .unbound).change change (i + 1) = .ok c) :
    perform ⟨change, i + 1⟩ list = (.ok (), (list.growTo (i + 1)).set i c) := by
  have entry := perform_eq ⟨change, i + 1⟩ list ⟨Nat.le_add_left 1 i, few⟩
  rw [Edit.onEntry] at entry
  dsimp only at entry
  rw [Nat.add_sub_cancel, changed] at entry
  exact entry

theorem performAll_pair {first second : Change} {c c' : CachedParameter} (few : i + 1 ≤ maxParameters)
    (changed : (list.getD i .unbound).change first (i + 1) = .ok c) (changed' : c.change second (i + 1) = .ok c') :
    Edit.performAll perform [⟨first, i + 1⟩, ⟨second, i + 1⟩] list =
      (bothDone i, (list.growTo (i + 1)).set i c') := by
  have inside := lt_length_growTo list i
  have grown : growTo ((list.growTo (i + 1)).set i c) (i + 1) = (list.growTo (i + 1)).set i c := by
    rw [growTo, List.length_set, Nat.sub_eq_zero_of_le inside]
    exact List.append_nil _
  have held : ((list.growTo (i + 1)).set i c).getD i .unbound = c := by
    rw [List.getD, List.getElem?_set_self inside, Option.getD_some]
  have again : perform ⟨second, i + 1⟩ ((list.growTo (i + 1)).set i c) =
      (.ok (), (list.growTo (i + 1)).set i c') := by
    rw [perform_of_change few (held ▸ changed'), grown, List.set_set]
  rw [Edit.performAll_cons, perform_of_change few changed, Edit.performAll_cons, again]
  rfl

theorem output_then_binding (list : CachedList) (binds : binding.binds = true) (few : i + 1 ≤ maxParameters) :
    Edit.performAll perform [⟨.operation .markOutput, i + 1⟩, ⟨binding, i + 1⟩] list =
      (bothDone i, list.withBoth i binding
        (binding.typeFrom (list.getD i .unbound).parameter.markOutput.oid)) := by
  apply performAll_pair few rfl
  rw [CachedParameter.change, Change.apply_of_binds binds, Parameter.direction_markOutput,
    Direction.withInput_withOutput, binds]
  rfl

theorem binding_then_output (list : CachedList) (binds : binding.binds = true) (few : i + 1 ≤ maxParameters) :
    Edit.performAll perform [⟨binding, i + 1⟩, ⟨.operation .markOutput, i + 1⟩] list =
      (bothDone i, list.withBoth i binding (binding.typeFrom (list.getD i .unbound).parameter.oid)) := by
  have bound : (list.getD i .unbound).change binding (i + 1) = .ok
      ⟨⟨binding.slot, binding.typeFrom (list.getD i .unbound).parameter.oid,
        (list.getD i .unbound).parameter.direction.withInput, binding.format⟩, none⟩ := by
    rw [CachedParameter.change, Change.apply_of_binds binds, binds]
    rfl
  apply performAll_pair few bound
  exact congrArg (fun p => Except.ok (⟨p, none⟩ : CachedParameter)) (Parameter.markOutput_of_input rfl)

theorem withBoth_inj {oid oid' : Oid} :
    (list.withBoth i binding oid).plain = (list.withBoth i binding oid').plain ↔ oid = oid' := by
  constructor
  · intro same
    have inside : i < (list.growTo (i + 1)).plain.length :=
      (lt_length_growTo list i).trans_eq (length_plain _).symm
    have entry := congrArg (fun list => list[i]?) same
    simp only [withBoth, plain_set, List.getElem?_set_self inside] at entry
    exact congrArg Parameter.oid (Option.some.inj entry)
  · rintro rfl
    rfl

theorem Sound.performAll_plain (sound : list.Sound) (edits : List Edit) :
    Edit.performAll ParameterList.perform edits list.plain =
      ((Edit.performAll perform edits list).1, (Edit.performAll perform edits list).2.plain) := by
  induction edits generalizing list with
  | nil => rfl
  | cons e edits ih =>
    have agrees := sound.change e.change e.index
    have first : ParameterList.perform e list.plain = ((perform e list).1, (perform e list).2.plain) := by
      rw [perform, agrees.result, agrees.plain]
      rfl
    have later := @ih (perform e list).2 agrees.sound
    rw [Edit.performAll_cons, Edit.performAll_cons, first]
    dsimp only
    rw [later]

/-- A parameter that is registered as an output and bound is the same in both orders, unless a NULL without a type
is bound to a parameter that had neither: if the registration is first, the NULL keeps the type `void`. -/
theorem Reached.output_order (reached : Reached list) (binds : binding.binds = true) (few : i + 1 ≤ maxParameters) :
    let held := (list.getD i .unbound).parameter
    let output : Edit := ⟨.operation .markOutput, i + 1⟩
    let input : Edit := ⟨binding, i + 1⟩
    Edit.performAll perform [input, output] list =
        (bothDone i, list.withBoth i binding (binding.typeFrom held.oid)) ∧
      Edit.performAll perform [output, input] list = (bothDone i, list.withBoth i binding
        (if binding.KeepsVoid held then Oid.void else binding.typeFrom held.oid)) ∧
      (Edit.performAll perform [output, input] list = Edit.performAll perform [input, output] list ↔
        ¬ binding.KeepsVoid held) ∧
      (Edit.performAll ParameterList.perform [output, input] list.plain =
          Edit.performAll ParameterList.perform [input, output] list.plain ↔ ¬ binding.KeepsVoid held) := by
  intro held output input
  have sound := reached.sound
  have inputFirst := binding_then_output list binds few
  have outputFirst := output_then_binding list binds few
  have same := (sound.getD i).parameter.typeFrom_eq_iff binding
  refine ⟨inputFirst, ?_, ?_, ?_⟩
  · rw [outputFirst, (sound.getD i).parameter.typeFrom_markOutput]
  · rw [inputFirst, outputFirst, ← same]
    constructor
    · intro lists
      exact withBoth_inj.1 (congrArg (fun result => plain result.2) lists)
    · intro types
      rw [types]
  · rw [sound.performAll_plain, sound.performAll_plain, inputFirst, outputFirst, ← same]
    constructor
    · intro lists
      exact withBoth_inj.1 (congrArg Prod.snd lists)
    · intro types
      rw [types]

theorem Reached.output_order_typed :
    Reached (CachedList.ofCount 1) ∧
      Edit.performAll ParameterList.perform [⟨.operation .markOutput, 1⟩, ⟨.operation (.bindNull Oid.int4), 1⟩]
          (CachedList.ofCount 1).plain =
        Edit.performAll ParameterList.perform [⟨.operation (.bindNull Oid.int4), 1⟩, ⟨.operation .markOutput, 1⟩]
          (CachedList.ofCount 1).plain := by
  have reached : Reached (CachedList.ofCount 1) := .ofCount 1
  have binds : Change.binds (.operation (.bindNull Oid.int4)) = true := rfl
  have few : 0 + 1 ≤ maxParameters := by decide
  have order := reached.output_order binds few
  exact ⟨reached, order.2.2.2.2 (by decide)⟩

/-- A NULL without a type keeps the type `void` of an output that was registered first. -/
theorem Reached.output_order_void :
    Reached (CachedList.ofCount 1) ∧
      Edit.performAll ParameterList.perform
          [⟨.operation .markOutput, 1⟩, ⟨.operation (.bindNull Oid.unspecified), 1⟩] (CachedList.ofCount 1).plain =
        (bothDone 0, [⟨.null, Oid.void, .both, .text⟩]) ∧
      Edit.performAll ParameterList.perform
          [⟨.operation (.bindNull Oid.unspecified), 1⟩, ⟨.operation .markOutput, 1⟩] (CachedList.ofCount 1).plain =
        (bothDone 0, [⟨.null, Oid.unspecified, .both, .text⟩]) :=
  ⟨.ofCount 1, rfl, rfl⟩

end CachedList

end ExtendedQuery
