import ExtendedQuery.Proofs.Parameter.Routing

/-!
# Lists as their concatenation

The parameters of several statements are those of one list, the concatenation of their lists: an operation at an
index changes the concatenation as the same operation on a single list does, reading gives what reading the
concatenation gives, and the division into lists stays (`Concatenates`). Main statement: `run_concatenates`,
after any operations on any lists.
-/

namespace ExtendedQuery

/-! ## Operations at an index -/

inductive ListOperation where
  | bind (value : Value) (oid : Oid)
  | bindEncoded (encoded : Encoded)
  | bindNull (oid : Oid)
  | markOutput
  | setResolvedType (found : Oid)

namespace ListOperation

def onList (op : ListOperation) (list : ParameterList) (index : Nat) : Except BindError ParameterList :=
  match op with
  | .bind value oid => list.bind index value oid
  | .bindEncoded encoded => list.bindEncoded index encoded
  | .bindNull oid => list.bindNull index oid
  | .markOutput => list.markOutput index
  | .setResolvedType found => list.setResolvedType index found

def onLists (op : ListOperation) (r : RoutedLists) (index : Nat) : Except BindError RoutedLists :=
  match op with
  | .bind value oid => r.bind index value oid
  | .bindEncoded encoded => r.bindEncoded index encoded
  | .bindNull oid => r.bindNull index oid
  | .markOutput => r.markOutput index
  | .setResolvedType found => r.setResolvedType index found

def change (op : ListOperation) (index : Nat) (p : Parameter) : Except BindError Parameter :=
  match op with
  | .bind value oid => .ok (p.bind value oid)
  | .bindEncoded encoded =>
    match encoded.value with
    | some value => .ok (p.bind value encoded.oid)
    | none => .ok (p.bindNull encoded.oid .text)
  | .bindNull oid => .ok (p.bindNull oid .text)
  | .markOutput => .ok p.markOutput
  | .setResolvedType found =>
    if p.oid = Oid.unspecified ∨ p.oid = found then .ok (p.resolve found)
    else .error (.typeConflict index p.oid found)

theorem onLists_eq (op : ListOperation) (r : RoutedLists) (index : Nat) :
    op.onLists r index = r.update index op.onList := by
  cases op <;> rfl

theorem onList_eq (op : ListOperation) (list : ParameterList) (index : Nat) :
    op.onList list index = list.update index (op.change index) := by
  cases op with
  | bindEncoded encoded =>
    obtain ⟨value, oid⟩ := encoded
    cases value <;> rfl
  | _ => rfl

end ListOperation

/-- An error of a list of which `offset` parameters are left out. An error of a conflict or of a value names the
parameter by its number in its own list. -/
def BindError.lower (offset : Nat) : BindError → BindError
  | .typeConflict index resolved found => .typeConflict (index - offset) resolved found
  | .valueTooLarge index length => .valueTooLarge (index - offset) length
  | e => e

namespace ListOperation

theorem change_lower (op : ListOperation) (offset j : Nat) (p : Parameter) :
    (op.change (offset + j) p).mapError (BindError.lower offset) = op.change j p := by
  cases op with
  | bindEncoded encoded =>
    obtain ⟨value, oid⟩ := encoded
    cases value <;> rfl
  | setResolvedType found =>
    unfold change
    dsimp only
    split
    · rfl
    · simp [Except.mapError, BindError.lower]
  | _ => rfl

end ListOperation

namespace ParameterList

theorem get_succ {list : ParameterList} {i : Nat} (inside : i < list.length) :
    list.get (i + 1) = .ok (list.getD i .unbound) := by
  rw [get, List.getElem?_eq_getElem inside, List.getD_eq_getElem _ _ inside]

theorem get_outside {list : ParameterList} {index : Nat} (outside : ¬ (1 ≤ index ∧ index ≤ list.length)) :
    list.get index = .error (.indexOutOfRange index list.length) := by
  cases index with
  | zero => rfl
  | succ i => rw [get, List.getElem?_eq_none (by omega)]

theorem update_succ {list : ParameterList} (few : list.length ≤ maxParameters) {i : Nat} (inside : i < list.length)
    (change : Parameter → Except BindError Parameter) :
    list.update (i + 1) change = (change (list.getD i .unbound)).map (list.set i) := by
  have grown : list.growTo (i + 1) = list := by
    rw [growTo, Nat.sub_eq_zero_of_le inside]
    exact List.append_nil list
  rw [update, if_neg (by omega), grown]

end ParameterList

namespace RoutedLists

/-! ## Around a place -/

theorem IsPlace.split {lists : List ParameterList} {index k j : Nat} (place : IsPlace lists index k j) :
    ∃ front list later i, lists = front ++ list :: later ∧ k = front.length ∧ j = i + 1 ∧ i < list.length ∧
      before lists k = front.flatten.length ∧ index = front.flatten.length + (i + 1) := by
  obtain ⟨inside, positive, below, position⟩ := place
  obtain ⟨i, rfl⟩ := Nat.exists_eq_add_one.2 positive
  have front : before lists k = (lists.take k).flatten.length := by rw [before, List.length_flatten]
  rw [List.getD_eq_getElem _ _ inside] at below
  refine ⟨lists.take k, lists[k], lists.drop (k + 1), i, ?_, ?_, rfl, below, front, front ▸ position⟩
  · rw [List.cons_getElem_drop_succ, List.take_append_drop]
  · rw [List.length_take, Nat.min_eq_left (Nat.le_of_lt inside)]

section

variable {front later : List ParameterList} {list : ParameterList}

theorem getD_middle : (front ++ list :: later).getD front.length [] = list := by simp [List.getD]

theorem set_middle (list' : ParameterList) :
    (front ++ list :: later).set front.length list' = front ++ list' :: later := by
  rw [List.set_append_right _ _ (Nat.le_refl _), Nat.sub_self, List.set_cons_zero]

theorem flatten_middle : (front ++ list :: later).flatten = front.flatten ++ (list ++ later.flatten) := by
  simp

theorem inside_flatten (front later : List ParameterList) {i : Nat} (inside : i < list.length) :
    front.flatten.length + i < (front ++ list :: later).flatten.length := by
  rw [flatten_middle, List.length_append, List.length_append]
  omega

theorem getD_flatten {i : Nat} (inside : i < list.length) (p : Parameter) :
    (front ++ list :: later).flatten.getD (front.flatten.length + i) p = list.getD i p := by
  rw [flatten_middle, List.getD_append_right _ _ _ _ (Nat.le_add_right _ _), Nat.add_sub_cancel_left,
    List.getD_append _ _ _ _ inside]

theorem set_flatten {i : Nat} (inside : i < list.length) (p : Parameter) :
    (front ++ list :: later).flatten.set (front.flatten.length + i) p =
      (front ++ list.set i p :: later).flatten := by
  rw [flatten_middle, flatten_middle, List.set_append_right _ _ (Nat.le_add_right _ _), Nat.add_sub_cancel_left,
    List.set_append_left _ _ inside]

end

/-! ## Changing -/

theorem update_of_place {r : RoutedLists} {index k j : Nat} (located : r.locate index = .ok (k, j))
    (f : ParameterList → Nat → Except BindError ParameterList) :
    r.update index f = (f (r.lists.getD k []) j).map fun list => { r with lists := r.lists.set k list } := by
  unfold update
  rw [located]
  change (f (r.lists.getD k []) j).bind _ = _
  cases f (r.lists.getD k []) j <;> rfl

theorem onLists_of_isPlace {lists : List ParameterList} (few : lists.flatten.length ≤ maxParameters)
    (op : ListOperation) {index k j : Nat} (place : IsPlace lists index k j) :
    (op.onLists (ofLists lists) index).map (·.lists.flatten) =
      (op.onList lists.flatten index).mapError (BindError.lower (before lists k)) := by
  have located := locate_ofLists.2 place
  obtain ⟨front, list, later, i, rfl, rfl, rfl, inside, offset, rfl⟩ := place.split
  have within := inside_flatten front later inside
  have short : list.length ≤ maxParameters := by
    rw [flatten_middle, List.length_append, List.length_append] at few
    omega
  rw [op.onLists_eq, update_of_place located, offset, lists_ofLists, getD_middle, op.onList_eq, op.onList_eq,
    ParameterList.update_succ short inside, ← Nat.add_assoc, ParameterList.update_succ few within,
    getD_flatten inside, Nat.add_assoc, ← op.change_lower front.flatten.length]
  cases op.change (front.flatten.length + (i + 1)) (list.getD i .unbound) with
  | error e => rfl
  | ok p =>
    simp only [Except.map, Except.mapError]
    rw [set_middle, set_flatten inside]

theorem onLists_outside {r : RoutedLists} (op : ListOperation) {index : Nat}
    (outside : ¬ (1 ≤ index ∧ index ≤ r.total)) : op.onLists r index = .error (.indexOutOfRange index r.total) := by
  rw [op.onLists_eq, update, locate_outside outside]
  rfl

theorem isPlace_of_range {lists : List ParameterList} {index : Nat} (positive : 1 ≤ index)
    (below : index ≤ (ofLists lists).total) : ∃ k j, IsPlace lists index k j := by
  rw [total_ofLists] at below
  obtain ⟨k, j, -, place⟩ := locate_ok positive below
  exact ⟨k, j, place⟩

structure Keeps (lists : List ParameterList) (r : RoutedLists) : Prop where
  lengths : r.lists.map List.length = lists.map List.length
  offsets : r.offsets = (ofLists lists).offsets
  total : r.total = (ofLists lists).total

theorem Keeps.eq {lists : List ParameterList} {r : RoutedLists} (keeps : Keeps lists r) : r = ofLists r.lists := by
  obtain ⟨offsets, total⟩ := routing_eq_iff.2 keeps.lengths
  have parts : r = ⟨r.lists, (ofLists r.lists).offsets, (ofLists r.lists).total⟩ := by
    rw [offsets, total, ← keeps.offsets, ← keeps.total]
  exact parts

theorem onLists_keeps {lists : List ParameterList} (few : lists.flatten.length ≤ maxParameters)
    (op : ListOperation) {index : Nat} {r : RoutedLists} (changed : op.onLists (ofLists lists) index = .ok r) :
    Keeps lists r := by
  by_cases range : 1 ≤ index ∧ index ≤ (ofLists lists).total
  · obtain ⟨k, j, place⟩ := isPlace_of_range range.1 range.2
    have located := locate_ofLists.2 place
    obtain ⟨front, list, later, i, rfl, rfl, rfl, inside, -, rfl⟩ := place.split
    have short : list.length ≤ maxParameters := by
      rw [flatten_middle, List.length_append, List.length_append] at few
      omega
    rw [op.onLists_eq, update_of_place located, lists_ofLists, getD_middle, op.onList_eq,
      ParameterList.update_succ short inside] at changed
    cases result : op.change (i + 1) (list.getD i .unbound) with
    | error e =>
      rw [result] at changed
      cases changed
    | ok p =>
      rw [result] at changed
      cases changed
      refine ⟨?_, rfl, rfl⟩
      dsimp only
      rw [set_middle]
      simp
  · rw [onLists_outside op range] at changed
    cases changed

/-! ## Reading -/

theorem mapError_map {α β ε ε' : Type} (result : Except ε α) (f : α → β) (g : ε → ε') :
    (result.map f).mapError g = (result.mapError g).map f := by
  cases result <;> rfl

theorem wireValue_global (p : Parameter) (offset j : Nat) :
    (p.wireValue j).mapError (BindError.raise offset) =
      (p.wireValue (offset + j)).mapError (BindError.lower offset) := by
  unfold Parameter.wireValue
  cases p.slot with
  | unbound => simp [Except.mapError, BindError.raise, BindError.lower, Nat.add_comm]
  | null => rfl
  | value value =>
    dsimp only
    split <;> simp [Except.mapError, BindError.raise, BindError.lower]

theorem wireValue_succ {list : ParameterList} {i : Nat} (inside : i < list.length) :
    list.wireValue (i + 1) = (list.getD i .unbound).wireValue (i + 1) := by
  rw [ParameterList.wireValue, ParameterList.get_succ inside]
  rfl

theorem readRaised_of_place {α : Type} {r : RoutedLists} {index k j : Nat} (located : r.locate index = .ok (k, j))
    (view : ParameterList → Nat → Except BindError α) :
    r.readRaised index view = (view (r.lists.getD k []) j).mapError (BindError.raise (r.offsets.getD k 0)) := by
  unfold readRaised
  rw [located]
  rfl

theorem readRaised_eq {α : Type} {lists : List ParameterList} {index k j : Nat} (place : IsPlace lists index k j)
    (view : Option Bytes → α) :
    (ofLists lists).readRaised index (fun list index => (list.wireValue index).map view) =
      ((ParameterList.wireValue lists.flatten index).map view).mapError (BindError.lower (before lists k)) := by
  have offset := offset_ofLists place.inside
  have located := locate_ofLists.2 place
  obtain ⟨front, list, later, i, rfl, rfl, rfl, inside, start, rfl⟩ := place.split
  have within := inside_flatten front later inside
  rw [readRaised_of_place located, offset, start, lists_ofLists, getD_middle, mapError_map, mapError_map,
    wireValue_succ inside, ← Nat.add_assoc, wireValue_succ within, getD_flatten inside, wireValue_global]
  rfl

theorem literal_of_isPlace {lists : List ParameterList} {index k j : Nat} (place : IsPlace lists index k j)
    (caps : Capabilities) : (ofLists lists).literal index caps = ParameterList.literal lists.flatten index caps := by
  have located := locate_ofLists.2 place
  obtain ⟨front, list, later, i, rfl, rfl, rfl, inside, start, rfl⟩ := place.split
  have within := inside_flatten front later inside
  rw [literal, read, located]
  change ParameterList.literal ((ofLists (front ++ list :: later)).lists.getD front.length []) (i + 1) caps = _
  rw [lists_ofLists, getD_middle, ParameterList.literal, ParameterList.literal, ParameterList.get_succ inside,
    ← Nat.add_assoc, ParameterList.get_succ within, getD_flatten inside]

theorem reads_outside {lists : List ParameterList} {index : Nat}
    (outside : ¬ (1 ≤ index ∧ index ≤ (ofLists lists).total)) (caps : Capabilities) :
    (ofLists lists).wireLength index = ParameterList.wireLength lists.flatten index ∧
      (ofLists lists).serialize index = ParameterList.serialize lists.flatten index ∧
      (ofLists lists).literal index caps = ParameterList.literal lists.flatten index caps := by
  have missing := locate_outside outside
  rw [total_ofLists] at outside missing
  have absent : ParameterList.get lists.flatten index = _ := ParameterList.get_outside outside
  refine ⟨?_, ?_, ?_⟩
  · rw [wireLength, readRaised, missing, ParameterList.wireLength, ParameterList.wireValue, absent]
    rfl
  · rw [serialize, readRaised, missing, ParameterList.serialize, ParameterList.wireValue, absent]
    rfl
  · rw [literal, read, missing, ParameterList.literal, absent]
    rfl

/-! ## Checking -/

theorem checkAllSet_append (a b : ParameterList) :
    ParameterList.checkAllSet (a ++ b) =
      (ParameterList.checkAllSet a).bind fun _ => (ParameterList.checkAllSet b).mapError (BindError.raise a.length) := by
  unfold ParameterList.checkAllSet
  rw [List.findIdx?_append]
  cases a.findIdx? (!·.isBound) with
  | some i => rfl
  | none =>
    cases b.findIdx? (!·.isBound) with
    | some i => simp [Except.bind, Except.mapError, BindError.raise, Nat.add_right_comm]
    | none => rfl

theorem mapError_bind {α β ε ε' : Type} (first : Except ε α) (next : α → Except ε β) (g : ε → ε') :
    (first.bind next).mapError g = (first.mapError g).bind fun a => (next a).mapError g := by
  cases first <;> rfl

theorem mapError_raise {α : Type} (result : Except BindError α) (m n : Nat) :
    (result.mapError (BindError.raise m)).mapError (BindError.raise n) =
      result.mapError (BindError.raise (n + m)) := by
  cases result with
  | ok a => rfl
  | error e => cases e <;> simp [Except.mapError, BindError.raise, Nat.add_assoc, Nat.add_comm n m]

theorem checkAllSet_from (front lists : List ParameterList) :
    ((lists.zipIdx front.length).forM fun (list, number) =>
        list.checkAllSet.mapError ((ofLists (front ++ lists)).global number)) =
      (ParameterList.checkAllSet lists.flatten).mapError (BindError.raise front.flatten.length) := by
  induction lists generalizing front with
  | nil => rfl
  | cons list later ih =>
    have others := ih (front ++ [list])
    have inside : front.length < (front ++ list :: later).length := by simp
    have offset : (ofLists (front ++ list :: later)).global front.length = BindError.raise front.flatten.length := by
      funext e
      rw [global, offset_ofLists inside, before, List.take_left, List.length_flatten]
    rw [List.append_assoc, List.singleton_append, List.length_append, List.length_singleton] at others
    rw [List.zipIdx_cons]
    change (list.checkAllSet.mapError ((ofLists (front ++ list :: later)).global front.length)).bind
      (fun _ => (later.zipIdx (front.length + 1)).forM _) = _
    rw [others, offset, List.flatten_cons, checkAllSet_append, mapError_bind]
    apply congrArg
    funext _
    rw [mapError_raise, List.flatten_append, List.length_append, List.flatten_singleton]

theorem checkAllSet_ofLists (lists : List ParameterList) :
    (ofLists lists).checkAllSet = ParameterList.checkAllSet lists.flatten := by
  refine (checkAllSet_from [] lists).trans ?_
  cases ParameterList.checkAllSet lists.flatten with
  | ok => rfl
  | error e => cases e <;> rfl

/-! ## The lists as a whole -/

theorem clear_flatten (lists : List ParameterList) :
    (lists.map ParameterList.clear).flatten = ParameterList.clear lists.flatten := by
  induction lists with
  | nil => rfl
  | cons list later ih =>
    rw [List.map_cons, List.flatten_cons, ih, List.flatten_cons, ParameterList.clear, ParameterList.clear,
      ParameterList.clear, List.length_append]
    exact List.replicate_append_replicate

theorem clear_keeps (lists : List ParameterList) : Keeps lists (ofLists lists).clear := by
  refine ⟨?_, rfl, rfl⟩
  simp [clear, ParameterList.clear, ParameterList.ofCount, Function.comp_def]

theorem inCount_ofLists (lists : List ParameterList) :
    (ofLists lists).inCount = ParameterList.inCount lists.flatten := by
  rw [inCount, lists_ofLists, ParameterList.inCount, List.countP_flatten]
  rfl

theorem replace_ofLists (lists others : List ParameterList) :
    (ofLists lists).replace (ofLists others) =
      if others.map List.length = lists.map List.length then .ok (ofLists others) else .error .incompatible := by
  unfold replace
  by_cases same : others.map List.length = lists.map List.length
  · obtain ⟨offsets, total⟩ := routing_eq_iff.2 same
    rw [if_pos same, offsets, total, if_neg (by simp), ← offsets, ← total]
  · have different : (ofLists lists).offsets ≠ (ofLists others).offsets ∨
        (ofLists lists).total ≠ (ofLists others).total := by
      by_contra equal
      rw [not_or, not_not, not_not] at equal
      exact same (routing_eq_iff.1 ⟨equal.1.symm, equal.2.symm⟩)
    rw [if_neg same, if_pos different]

/-! ## A list of lists and its concatenation -/

/-- The lists behave as their concatenation, and are divided as their offsets say. -/
structure Concatenates (r : RoutedLists) : Prop where
  offsets : r.offsets = (List.range r.lists.length).map (before r.lists)
  total : r.total = r.lists.flatten.length
  located_iff : ∀ index k j, r.locate index = .ok (k, j) ↔ IsPlace r.lists index k j
  routed_iff : ∀ index, (∃ place, r.locate index = .ok place) ↔ 1 ≤ index ∧ index ≤ r.total
  changed : ∀ (op : ListOperation) index k j, IsPlace r.lists index k j →
    (op.onLists r index).map (·.lists.flatten) =
      (op.onList r.lists.flatten index).mapError (BindError.lower (before r.lists k))
  kept : ∀ (op : ListOperation) index s, op.onLists r index = .ok s →
    s.lists.map List.length = r.lists.map List.length ∧ s.offsets = r.offsets ∧ s.total = r.total
  outside : ∀ (op : ListOperation) index, ¬ (1 ≤ index ∧ index ≤ r.total) →
    op.onLists r index = .error (.indexOutOfRange index r.total)
  cleared : r.clear.lists.flatten = ParameterList.clear r.lists.flatten ∧
    r.clear.lists.map List.length = r.lists.map List.length ∧ r.clear.offsets = r.offsets ∧ r.clear.total = r.total
  replaced : ∀ others, r.replace (ofLists others) =
    if others.map List.length = r.lists.map List.length then .ok (ofLists others) else .error .incompatible
  wireLength : ∀ index k j, IsPlace r.lists index k j →
    r.wireLength index =
      (ParameterList.wireLength r.lists.flatten index).mapError (BindError.lower (before r.lists k))
  serialize : ∀ index k j, IsPlace r.lists index k j →
    r.serialize index =
      (ParameterList.serialize r.lists.flatten index).mapError (BindError.lower (before r.lists k))
  literal : ∀ index caps, r.literal index caps = ParameterList.literal r.lists.flatten index caps
  unread : ∀ index, ¬ (1 ≤ index ∧ index ≤ r.total) →
    r.wireLength index = ParameterList.wireLength r.lists.flatten index ∧
      r.serialize index = ParameterList.serialize r.lists.flatten index
  oids : r.oids = ParameterList.oids r.lists.flatten
  hasUnresolvedTypes : r.hasUnresolvedTypes = ParameterList.hasUnresolvedTypes r.lists.flatten
  inCount : r.inCount = ParameterList.inCount r.lists.flatten
  checkAllSet : r.checkAllSet = ParameterList.checkAllSet r.lists.flatten

theorem concatenates_ofLists {lists : List ParameterList} (few : lists.flatten.length ≤ maxParameters) :
    Concatenates (ofLists lists) where
  offsets := by rw [ofLists_eq]
  total := total_ofLists lists
  located_iff index k j := locate_ofLists
  routed_iff index := by
    constructor
    · intro ⟨(k, j), located⟩
      rw [total_ofLists]
      exact (locate_ofLists.1 located).range
    · intro ⟨positive, below⟩
      obtain ⟨k, j, place⟩ := isPlace_of_range positive below
      exact ⟨(k, j), locate_ofLists.2 place⟩
  changed op index k j place := onLists_of_isPlace few op place
  kept op index s changed := by
    have keeps := onLists_keeps few op changed
    exact ⟨keeps.lengths, keeps.offsets, keeps.total⟩
  outside op index outside := onLists_outside op outside
  cleared := by
    have keeps := clear_keeps lists
    exact ⟨clear_flatten lists, keeps.lengths, keeps.offsets, keeps.total⟩
  replaced others := replace_ofLists lists others
  wireLength index k j place := readRaised_eq place announcedLength
  serialize index k j place := readRaised_eq place (·.getD [])
  literal index caps := by
    by_cases range : 1 ≤ index ∧ index ≤ (ofLists lists).total
    · obtain ⟨k, j, place⟩ := isPlace_of_range range.1 range.2
      exact literal_of_isPlace place caps
    · exact (reads_outside range caps).2.2
  unread index outside := by
    obtain ⟨length, bytes, -⟩ := reads_outside outside .default
    exact ⟨length, bytes⟩
  oids := List.map_flatten.symm
  hasUnresolvedTypes := List.any_flatten.symm
  inCount := inCount_ofLists lists
  checkAllSet := checkAllSet_ofLists lists

/-! ## Histories -/

inductive Operation where
  | change (op : ListOperation) (index : Nat)
  | clear
  | replace (others : List ParameterList)

def Operation.apply (r : RoutedLists) : Operation → RoutedLists
  | .change op index => (op.onLists r index).toOption.getD r
  | .clear => r.clear
  | .replace others => (r.replace (ofLists others)).toOption.getD r

def run (r : RoutedLists) (operations : List Operation) : RoutedLists := operations.foldl Operation.apply r

theorem Keeps.refl (lists : List ParameterList) : Keeps lists (ofLists lists) := ⟨rfl, rfl, rfl⟩

theorem Keeps.trans {lists : List ParameterList} {r s : RoutedLists} (first : Keeps lists r)
    (second : Keeps r.lists s) : Keeps lists s := by
  have same := routing_eq_iff.2 first.lengths
  exact ⟨second.lengths.trans first.lengths, second.offsets.trans same.1, second.total.trans same.2⟩

theorem Keeps.few {lists : List ParameterList} {r : RoutedLists} (keeps : Keeps lists r)
    (few : lists.flatten.length ≤ maxParameters) : r.lists.flatten.length ≤ maxParameters := by
  rwa [List.length_flatten, keeps.lengths, ← List.length_flatten]

theorem apply_keeps {lists : List ParameterList} (few : lists.flatten.length ≤ maxParameters)
    (operation : Operation) : Keeps lists (operation.apply (ofLists lists)) := by
  cases operation with
  | change op index =>
    unfold Operation.apply
    dsimp only
    cases changed : op.onLists (ofLists lists) index with
    | error e => exact .refl lists
    | ok r => exact onLists_keeps few op changed
  | clear => exact clear_keeps lists
  | replace others =>
    unfold Operation.apply
    dsimp only
    rw [replace_ofLists]
    split
    · rename_i same
      obtain ⟨offsets, total⟩ := routing_eq_iff.2 same
      exact ⟨same, offsets, total⟩
    · exact .refl lists

theorem run_keeps {lists : List ParameterList} (few : lists.flatten.length ≤ maxParameters)
    (operations : List Operation) : Keeps lists (run (ofLists lists) operations) := by
  induction operations generalizing lists with
  | nil => exact .refl lists
  | cons operation later ih =>
    have first := apply_keeps few operation
    have rest := ih (first.few few)
    rw [← first.eq] at rest
    exact first.trans rest

/-- After any operations at any indices the lists behave as their concatenation, and they are divided as they
were at first. -/
theorem run_concatenates (lists : List ParameterList) (few : lists.flatten.length ≤ maxParameters)
    (operations : List Operation) :
    (run (ofLists lists) operations).lists.map List.length = lists.map List.length ∧
      Concatenates (run (ofLists lists) operations) := by
  have keeps := run_keeps few operations
  constructor
  · exact keeps.lengths
  · rw [keeps.eq]
    exact concatenates_ofLists (keeps.few few)

theorem run_concatenates_gaps :
    (run (ofLists [[], [.unbound], [], [.unbound, .unbound]])
        [.change .markOutput 2, .replace [[.unbound, .unbound, .unbound]], .clear]).lists.map List.length =
      [0, 1, 0, 2] ∧
    Concatenates (run (ofLists [[], [.unbound], [], [.unbound, .unbound]])
      [.change .markOutput 2, .replace [[.unbound, .unbound, .unbound]], .clear]) :=
  run_concatenates [[], [.unbound], [], [.unbound, .unbound]] (by decide) _

end RoutedLists

end ExtendedQuery
