import ExtendedQuery.Proofs.Parameter.Concatenation
import ExtendedQuery.Proofs.Parameter.Missing
import ExtendedQuery.Proofs.Session.Validated

/-!
# The parameter that an error names

The parameters of several statements are numbered through all lists, but not every error names them so. A
conflict of types and a value that is too large are named by their numbers in their own list
(`BindError.Blames`), and so is the missing value that an execution reports; the check of all lists names the
same missing value by its number among all parameters. Main statement: `RoutedLists.blamed_ofLists`.
-/

namespace ExtendedQuery

open RoutedLists

namespace BindError

def index? : BindError → Option Nat
  | .indexOutOfRange index _ | .unbound index | .typeConflict index _ _ | .valueTooLarge index _ => some index
  | .incompatible | .tooManyParameters _ => none

def isLocal : BindError → Bool
  | .typeConflict _ _ _ | .valueTooLarge _ _ => true
  | _ => false

/-- An error for the index names the parameter that has it. -/
def Blames (lists : List ParameterList) (index : Nat) (e : BindError) : Prop :=
  ∀ named, e.index? = some named → if e.isLocal then ∃ k, IsPlace lists index k named else named = index

theorem blames_outside (lists : List ParameterList) (index count : Nat) :
    Blames lists index (.indexOutOfRange index count) := by
  intro named names
  cases names
  rfl

end BindError

namespace RoutedLists

variable {lists : List ParameterList} {index : Nat} {e : BindError}

theorem change_error {op : ListOperation} {j : Nat} {p : Parameter} (refused : op.change j p = .error e) :
    ∃ resolved found, e = .typeConflict j resolved found := by
  cases op with
  | setResolvedType found =>
    unfold ListOperation.change at refused
    dsimp only at refused
    split at refused
    · cases refused
    · cases refused
      exact ⟨_, _, rfl⟩
  | bindEncoded encoded =>
    obtain ⟨value, oid⟩ := encoded
    cases value <;> cases refused
  | _ => cases refused

theorem onList_error {op : ListOperation} {list : ParameterList} {j : Nat} (refused : op.onList list j = .error e)
    (positive : 1 ≤ j) :
    (∃ count, e = .tooManyParameters count) ∨ ∃ resolved found, e = .typeConflict j resolved found := by
  obtain ⟨i, rfl⟩ := Nat.exists_eq_add_one.2 positive
  rw [op.onList_eq, ParameterList.update] at refused
  split at refused
  · cases refused
    exact .inl ⟨_, rfl⟩
  · dsimp only at refused
    cases changed : op.change (i + 1) ((list.growTo (i + 1)).getD i .unbound) with
    | ok p =>
      rw [changed] at refused
      cases refused
    | error e' =>
      rw [changed] at refused
      cases refused
      exact .inr (change_error changed)

theorem onLists_blames {op : ListOperation} (refused : op.onLists (ofLists lists) index = .error e) :
    e.Blames lists index := by
  by_cases range : 1 ≤ index ∧ index ≤ (ofLists lists).total
  · obtain ⟨k, j, place⟩ := isPlace_of_range range.1 range.2
    rw [op.onLists_eq, update_of_place (locate_ofLists.2 place)] at refused
    cases changed : op.onList ((ofLists lists).lists.getD k []) j with
    | ok list =>
      rw [changed] at refused
      cases refused
    | error e' =>
      rw [changed] at refused
      cases refused
      intro named names
      rcases onList_error changed place.positive with ⟨count, rfl⟩ | ⟨resolved, found, rfl⟩
      · cases names
      · cases names
        exact ⟨k, place⟩
  · rw [onLists_outside op range] at refused
    cases refused
    exact BindError.blames_outside lists index _

theorem wireValue_error {p : Parameter} {j : Nat} (refused : p.wireValue j = .error e) :
    e = .unbound j ∨ ∃ length, e = .valueTooLarge j length := by
  unfold Parameter.wireValue at refused
  cases slot : p.slot with
  | unbound =>
    rw [slot] at refused
    cases refused
    exact .inl rfl
  | null =>
    rw [slot] at refused
    cases refused
  | value v =>
    rw [slot] at refused
    dsimp only at refused
    split at refused
    · cases refused
      exact .inr ⟨_, rfl⟩
    · cases refused

theorem readRaised_blames {α : Type} {view : Option Bytes → α}
    (refused : (ofLists lists).readRaised index (fun list j => (list.wireValue j).map view) = .error e) :
    e.Blames lists index := by
  by_cases range : 1 ≤ index ∧ index ≤ (ofLists lists).total
  · obtain ⟨k, j, place⟩ := isPlace_of_range range.1 range.2
    have offset := offset_ofLists place.inside
    have own : ((ofLists lists).lists.getD k []).wireValue j =
        (((ofLists lists).lists.getD k []).getD (j - 1) .unbound).wireValue j := by
      obtain ⟨i, rfl⟩ := Nat.exists_eq_add_one.2 place.positive
      exact wireValue_succ place.below
    rw [readRaised_of_place (locate_ofLists.2 place), offset, own] at refused
    cases read : (((ofLists lists).lists.getD k []).getD (j - 1) .unbound).wireValue j with
    | ok bytes =>
      rw [read] at refused
      cases refused
    | error e' =>
      rw [read] at refused
      cases refused
      intro named names
      rcases wireValue_error read with rfl | ⟨length, rfl⟩
      · cases names
        rw [if_neg (by simp [BindError.isLocal, BindError.raise]), place.position, Nat.add_comm]
      · cases names
        exact ⟨k, place⟩
  · rw [readRaised, locate_outside range] at refused
    cases refused
    exact BindError.blames_outside lists index _

theorem firstUnbound_split {lists : List ParameterList} {index : Nat}
    (first : ParameterList.FirstUnbound lists.flatten index) :
    ∃ front list later j, lists = front ++ list :: later ∧ (∀ l ∈ front, ∀ p ∈ l, p.isBound = true) ∧
      list.FirstUnbound j ∧ IsPlace lists index front.length j := by
  obtain ⟨p, member, unbound⟩ : ∃ p ∈ lists.flatten, p.isBound = false := by
    obtain ⟨front, p, later, split, -, unbound, -⟩ := first
    exact ⟨p, by simp [split], unbound⟩
  obtain ⟨l, inside, member⟩ := List.mem_flatten.1 member
  cases found : lists.find? (·.any (!·.isBound)) with
  | none =>
    have complete := List.find?_eq_none.1 found l inside
    exact absurd (List.any_eq_true.2 ⟨p, member, by simp [unbound]⟩) complete
  | some list =>
    obtain ⟨incomplete, front, later, rfl, complete⟩ := List.find?_eq_some_iff_append.1 found
    obtain ⟨q, member, unbound⟩ := List.any_eq_true.1 incomplete
    obtain ⟨j, own⟩ := ParameterList.exists_firstUnbound member (by simpa using unbound)
    have bound : ∀ l ∈ front, ∀ p ∈ l, p.isBound = true := by simpa using complete
    refine ⟨front, list, later, j, rfl, bound, own, ?_⟩
    have position : index = front.flatten.length + j := by
      have complete : ∀ p ∈ front.flatten, p.isBound = true := by simpa using fun p l member => bound l member p
      have shifted := own.append complete later.flatten
      rw [← flatten_middle] at shifted
      exact first.unique shifted
    obtain ⟨inner, p, rest, rfl, -, -, rfl⟩ := own
    refine ⟨by simp, Nat.le_add_left 1 _, ?_, ?_⟩
    · rw [getD_middle]
      simp
    · rw [position, before, List.take_left, List.length_flatten]

end RoutedLists

section

variable {σ : Type} [Descriptor σ]

theorem exchange_refused {bindings : List (Binding σ)} {e : BindError}
    (refused : bindings.mapM Binding.plan = .error e) (c : Connection) :
    exchange bindings c = (.error (.bind e), bindings, c) := by
  rw [exchange, refused]

theorem plan_of_firstUnbound {b : Binding σ} {j : Nat}
    (count : b.parameters.length = (Descriptor.fragments b.statement).placeholderCount)
    (few : b.parameters.length ≤ maxParameters) (first : b.parameters.FirstUnbound j) :
    b.plan = .error (.unbound j) := by
  unfold Binding.plan
  rw [if_neg (by omega), if_neg (not_not.2 count), ParameterList.checkAllSet_of_firstUnbound first]
  rfl

end

theorem mem_bindings {statements : List Statement} {lists : List ParameterList} {b : Binding Statement}
    (counts : statements.map (·.fragments.placeholderCount) = lists.map List.length)
    (member : b ∈ List.zipWith Binding.mk statements lists) :
    b.parameters ∈ lists ∧ b.parameters.length = b.statement.fragments.placeholderCount := by
  induction statements generalizing lists with
  | nil => simp at member
  | cons s later ih =>
    cases lists with
    | nil => cases counts
    | cons list lists =>
      obtain ⟨count, others⟩ := List.cons.inj counts
      rcases List.mem_cons.1 member with rfl | member
      · exact ⟨List.mem_cons_self, count.symm⟩
      · obtain ⟨inside, length⟩ := ih others member
        exact ⟨List.mem_cons_of_mem list inside, length⟩

namespace RoutedLists

/-- There is a list for each statement, with a parameter for each of its placeholders, and no value is too large. -/
structure Suits (lists : List ParameterList) (statements : List Statement) : Prop where
  placeholders : (Query.composite statements).placeholders = lists.map List.length
  few : ∀ list ∈ lists, list.length ≤ maxParameters
  short : ∀ list ∈ lists, list.Short

theorem execute_firstUnbound {lists : List ParameterList} {statements : List Statement}
    (suits : Suits lists statements) {index : Nat} (first : ParameterList.FirstUnbound lists.flatten index)
    (c : Connection) :
    ∃ k j, IsPlace lists index k j ∧
      ((Query.composite statements).execute (.composite lists) c).outcome = .error (.bind (.unbound j)) := by
  obtain ⟨front, list, later, j, rfl, bound, own, place⟩ := firstUnbound_split first
  refine ⟨front.length, j, place, ?_⟩
  obtain ⟨counts, few, short⟩ := suits
  obtain ⟨before, others, rfl, counted, counted'⟩ := List.map_eq_append_iff.1 (counts.trans List.map_append)
  obtain ⟨s, after, rfl, count, -⟩ := List.map_eq_cons_iff.1 counted'
  have length : before.length = front.length := by simpa using congrArg List.length counted
  have lengths : (before ++ s :: after).length = (front ++ list :: later).length := by
    simpa [Query.placeholders] using congrArg List.length counts
  rw [Query.execute_composite lengths]
  dsimp only
  rw [exchange_refused]
  rw [List.zipWith_append length, List.zipWith_cons_cons]
  apply mapM_of_first_error
  · intro b member
    obtain ⟨inside, filled⟩ := mem_bindings counted member
    apply plan_isOk_iff.2
    exact ⟨filled ▸ few _ (by simp [inside]), filled, bound _ inside, short _ (by simp [inside])⟩
  · exact plan_of_firstUnbound count.symm (few list (by simp)) own

structure Blamed (lists : List ParameterList) : Prop where
  changed : ∀ (op : ListOperation) index e, op.onLists (ofLists lists) index = .error e → e.Blames lists index
  measured : ∀ index e, (ofLists lists).wireLength index = .error e → e.Blames lists index
  written : ∀ index e, (ofLists lists).serialize index = .error e → e.Blames lists index
  checked : ∀ e, (ofLists lists).checkAllSet = .error e ↔
    ∃ index, ParameterList.FirstUnbound lists.flatten index ∧ e = .unbound index
  executed : ∀ statements c index, Suits lists statements → ParameterList.FirstUnbound lists.flatten index →
    ∃ k j, IsPlace lists index k j ∧
      ((Query.composite statements).execute (.composite lists) c).outcome = .error (.bind (.unbound j))
  same_iff : ∀ index k j, IsPlace lists index k j → (j = index ↔ before lists k = 0)

theorem blamed_ofLists (lists : List ParameterList) : Blamed lists where
  changed _ _ _ refused := onLists_blames refused
  measured _ _ refused := readRaised_blames refused
  written _ _ refused := readRaised_blames refused
  checked e := by
    rw [checkAllSet_ofLists]
    exact ParameterList.checkAllSet_error_iff
  executed _ c _ suits first := execute_firstUnbound suits first c
  same_iff index k j place := by
    have := place.position
    omega

theorem blamed_second :
    ¬ (∀ e named, (ofLists [[.unbound], [Parameter.unbound.bind (.text "7") Oid.int4]]).setResolvedType 2 Oid.text =
        .error e → e.index? = some named → named = 2) ∧
      ¬ (∃ index, firstBound.checkAllSet = .error (.unbound index) ∧
        (selectPair.execute firstBound (.new .default)).outcome = .error (.bind (.unbound index))) := by
  constructor
  · intro global
    have place : IsPlace [[.unbound], [Parameter.unbound.bind (.text "7") Oid.int4]] 2 1 1 :=
      ⟨by simp, by simp, by simp, rfl⟩
    have conflict := update_of_place (locate_ofLists.2 place) fun list j => list.setResolvedType j Oid.text
    cases global (.typeConflict 1 Oid.int4 Oid.text) 1 (conflict.trans rfl) rfl
  · rintro ⟨index, checked, executed⟩
    have checked' : firstBound.checkAllSet = .error (.unbound 2) := rfl
    have executed' : (selectPair.execute firstBound (.new .default)).outcome = .error (.bind (.unbound 1)) := rfl
    rw [checked'] at checked
    rw [executed'] at executed
    cases checked
    cases executed

end RoutedLists

end ExtendedQuery
