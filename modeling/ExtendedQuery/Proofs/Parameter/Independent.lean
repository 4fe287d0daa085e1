import ExtendedQuery.Proofs.Parameter.Remembered

/-!
# Changes of different parameters

A change looks at one parameter and changes no other (`Edit.onEntry`), whether it makes the list longer, is
refused or does neither. So what becomes of a parameter, and of the changes to it, is decided by these changes
alone (`Edit.performAll_onEntry`), and changes of different parameters can be made in any order. Main statement:
`edits_independent`.
-/

namespace ExtendedQuery

structure Edit where
  change : Change
  index : Nat

namespace Edit

structure Allowed (e : Edit) : Prop where
  positive : 1 ≤ e.index
  few : e.index ≤ maxParameters

/-- What is left of `old` after a change: nothing of it changes if the change is refused. -/
def settle {α : Type} (old : α) (changed : Except BindError α) : Except BindError Unit × α :=
  (changed.map fun _ => (), changed.toOption.getD old)

def performAll {σ : Type} (perform : Edit → σ → Except BindError Unit × σ) :
    List Edit → σ → List (Nat × Except BindError Unit) × σ
  | [], s => ([], s)
  | e :: later, s =>
    let (result, s) := perform e s
    let (results, s) := performAll perform later s
    ((e.index, result) :: results, s)

section

variable {σ : Type} {perform perform' : Edit → σ → Except BindError Unit × σ}

theorem performAll_cons (perform : Edit → σ → Except BindError Unit × σ) (e : Edit) (edits : List Edit) (s : σ) :
    performAll perform (e :: edits) s =
      ((e.index, (perform e s).1) :: (performAll perform edits (perform e s).2).1,
        (performAll perform edits (perform e s).2).2) := rfl

theorem performAll_congr (same : ∀ e s, e.Allowed → perform e s = perform' e s) {edits : List Edit}
    (allowed : ∀ e ∈ edits, e.Allowed) (s : σ) : performAll perform edits s = performAll perform' edits s := by
  induction edits generalizing s with
  | nil => rfl
  | cons e edits ih =>
    rw [List.forall_mem_cons] at allowed
    rw [performAll_cons, performAll_cons, same e s allowed.1, ih allowed.2]

end

/-- The same changes, in the same order for every index. -/
structure Rearranged (edits others : List Edit) : Prop where
  perm : edits.Perm others
  order : ∀ index, edits.filter (·.index == index) = others.filter (·.index == index)

section

variable {α : Type} (fresh : α) (step : Edit → α → Except BindError Unit × α)

def onEntry (e : Edit) (list : List α) : Except BindError Unit × List α :=
  let (result, entry) := step e (list.getD (e.index - 1) fresh)
  (result, (list ++ List.replicate (e.index - list.length) fresh).set (e.index - 1) entry)

variable {fresh step} {e : Edit} {edits others : List Edit}

theorem length_onEntry (e : Edit) (list : List α) :
    (onEntry fresh step e list).2.length = max list.length e.index := by
  simp only [onEntry, List.length_set, List.length_append, List.length_replicate]
  omega

theorem getD_onEntry (positive : 1 ≤ e.index) (list : List α) (i : Nat) :
    (onEntry fresh step e list).2.getD i fresh =
      if e.index = i + 1 then (step e (list.getD i fresh)).2 else list.getD i fresh := by
  unfold onEntry
  by_cases own : e.index = i + 1
  · have inside : i < (list ++ List.replicate (e.index - list.length) fresh).length := by
      rw [List.length_append, List.length_replicate]
      omega
    rw [if_pos own, own, Nat.add_sub_cancel, List.getD, List.getElem?_set_self (own ▸ inside), Option.getD_some]
  · have other : e.index - 1 ≠ i := by omega
    rw [if_neg own, List.getD, List.getElem?_set_ne other]
    exact getD_append_fresh list _ i fresh

theorem onEntry_result (e : Edit) (list : List α) :
    (onEntry fresh step e list).1 = (step e (list.getD (e.index - 1) fresh)).1 := rfl

theorem ext_getD (fresh : α) {list list' : List α} (long : list.length = list'.length)
    (same : ∀ i, list.getD i fresh = list'.getD i fresh) : list = list' := by
  apply List.ext_getElem long
  intro i inside inside'
  have entry := same i
  rwa [List.getD_eq_getElem _ _ inside, List.getD_eq_getElem _ _ inside'] at entry

theorem set_getD (fresh : α) (list : List α) (i : Nat) : list.set i (list.getD i fresh) = list := by
  by_cases inside : i < list.length
  · rw [List.getD_eq_getElem _ _ inside, List.set_getElem_self]
  · exact List.set_eq_of_length_le (Nat.not_lt.1 inside)

theorem length_performAll (edits : List Edit) (list : List α) :
    (performAll (onEntry fresh step) edits list).2.length = (edits.map (·.index)).foldl max list.length := by
  induction edits generalizing list with
  | nil => rfl
  | cons e edits ih => rw [performAll_cons, ih, length_onEntry, List.map_cons, List.foldl_cons]

theorem performAll_onEntry (fresh : α) (step : Edit → α → Except BindError Unit × α)
    (positive : ∀ e ∈ edits, 1 ≤ e.index) (list : List α) (i : Nat) :
    ((performAll (onEntry fresh step) edits list).1.filter (·.1 == i + 1),
        (performAll (onEntry fresh step) edits list).2.getD i fresh) =
      performAll step (edits.filter (·.index == i + 1)) (list.getD i fresh) := by
  induction edits generalizing list with
  | nil => rfl
  | cons e edits ih =>
    rw [List.forall_mem_cons] at positive
    have later := ih positive.2 (onEntry fresh step e list).2
    rw [getD_onEntry positive.1] at later
    rw [performAll_cons]
    by_cases own : e.index = i + 1
    · rw [if_pos own] at later
      rw [List.filter_cons_of_pos (by simpa using own), List.filter_cons_of_pos (by simpa using own), performAll_cons,
        ← later, onEntry_result, own, Nat.add_sub_cancel]
    · rw [if_neg own] at later
      rw [List.filter_cons_of_neg (by simpa using own), List.filter_cons_of_neg (by simpa using own), later]

/-- Changes of different entries do not meet. An entry that a list does not have yet counts as a fresh one. -/
structure Independent (fresh : α) (perform : Edit → List α → Except BindError Unit × List α) : Prop where
  swaps : ∀ (e f : Edit) list, e.Allowed → f.Allowed → e.index ≠ f.index →
    (perform f (perform e list).2).2 = (perform e (perform f list).2).2 ∧
      (perform f (perform e list).2).1 = (perform f list).1 ∧ (perform e (perform f list).2).1 = (perform e list).1
  rearranges : ∀ edits others list, (∀ e ∈ edits, Allowed e) → Rearranged edits others →
    (performAll perform edits list).2 = (performAll perform others list).2 ∧
      ∀ i, (performAll perform edits list).1.filter (·.1 == i + 1) =
        (performAll perform others list).1.filter (·.1 == i + 1)
  apart : ∀ edits others list list' i, (∀ e ∈ edits, Allowed e) → (∀ e ∈ others, Allowed e) →
    edits.filter (·.index == i + 1) = others.filter (·.index == i + 1) →
    list.getD i fresh = list'.getD i fresh →
    (performAll perform edits list).2.getD i fresh = (performAll perform others list').2.getD i fresh
  long : ∀ edits list, (∀ e ∈ edits, Allowed e) →
    (performAll perform edits list).2.length = (edits.map (·.index)).foldl max list.length

theorem onEntry_swaps (fresh : α) (step : Edit → α → Except BindError Unit × α) {e f : Edit}
    (first : 1 ≤ e.index) (second : 1 ≤ f.index) (differ : e.index ≠ f.index) (list : List α) :
    (onEntry fresh step f (onEntry fresh step e list).2).2 = (onEntry fresh step e (onEntry fresh step f list).2).2 ∧
      (onEntry fresh step f (onEntry fresh step e list).2).1 = (onEntry fresh step f list).1 := by
  constructor
  · apply ext_getD fresh
    · simp only [length_onEntry]
      omega
    · intro i
      simp only [getD_onEntry first, getD_onEntry second]
      by_cases own : e.index = i + 1
      · have other : f.index ≠ i + 1 := fun same => differ (own.trans same.symm)
        simp only [if_pos own, if_neg other]
      · simp only [if_neg own]
  · have other : e.index ≠ f.index - 1 + 1 := by omega
    rw [onEntry_result, getD_onEntry first, if_neg other, onEntry_result]

theorem Independent.of_onEntry {perform : Edit → List α → Except BindError Unit × List α}
    (same : ∀ e list, e.Allowed → perform e list = onEntry fresh step e list) : Independent fresh perform := by
  have runs {edits : List Edit} (allowed : ∀ e ∈ edits, e.Allowed) (list : List α) :
      performAll perform edits list = performAll (onEntry fresh step) edits list :=
    performAll_congr same allowed list
  have entries {edits : List Edit} (allowed : ∀ e ∈ edits, e.Allowed) (list : List α) (i : Nat) :=
    performAll_onEntry fresh step (fun e member => (allowed e member).positive) list i
  constructor
  case swaps =>
    intro e f list first second differ
    simp only [same _ _ first, same _ _ second]
    have swapped := onEntry_swaps fresh step first.positive second.positive differ list
    have back := onEntry_swaps fresh step second.positive first.positive differ.symm list
    exact ⟨swapped.1, swapped.2, back.2⟩
  case rearranges =>
    intro edits others list allowed rearranged
    have allowed' : ∀ e ∈ others, e.Allowed := fun e member => allowed e (rearranged.perm.mem_iff.2 member)
    rw [runs allowed, runs allowed']
    have entry (i : Nat) := entries allowed list i
    simp only [rearranged.order, ← entries allowed', Prod.mk.injEq] at entry
    constructor
    · apply ext_getD fresh
      · rw [length_performAll, length_performAll]
        exact (rearranged.perm.map _).foldl_op_eq
      · exact fun i => (entry i).2
    · exact fun i => (entry i).1
  case apart =>
    intro edits others list list' i allowed allowed' order held
    rw [runs allowed, runs allowed']
    have entry := entries allowed list i
    rw [order, held, ← entries allowed'] at entry
    exact congrArg Prod.snd entry
  case long =>
    intro edits list allowed
    rw [runs allowed, length_performAll]

end

end Edit

namespace ParameterList

def perform (e : Edit) (list : ParameterList) : Except BindError Unit × ParameterList :=
  Edit.settle list (e.change.onList list e.index)

theorem perform_eq (e : Edit) (list : ParameterList) (allowed : e.Allowed) : perform e list =
    Edit.onEntry .unbound (fun e p => Edit.settle p (e.change.apply e.index p)) e list := by
  obtain ⟨change, index⟩ := e
  obtain ⟨i, rfl⟩ := Nat.exists_eq_add_one.2 allowed.positive
  unfold perform Edit.onEntry
  dsimp only
  rw [change.onList_eq, update, if_neg (Nat.not_lt.2 allowed.few), Nat.add_sub_cancel]
  dsimp only
  rw [growTo, ofCount, getD_append_fresh]
  cases applied : change.apply (i + 1) (list.getD i .unbound) with
  | ok p => rfl
  | error e =>
    have inside := Change.inside_of_refused id rfl applied
    rw [Nat.sub_eq_zero_of_le inside, List.replicate_zero, List.append_nil]
    exact congrArg (Prod.mk _) (Edit.set_getD Parameter.unbound list i).symm

end ParameterList

namespace CachedList

def perform (e : Edit) (list : CachedList) : Except BindError Unit × CachedList := list.change e.change e.index

theorem perform_eq (e : Edit) (list : CachedList) (allowed : e.Allowed) : perform e list =
    Edit.onEntry .unbound (fun e c => Edit.settle c (c.change e.change e.index)) e list := by
  obtain ⟨change, index⟩ := e
  obtain ⟨i, rfl⟩ := Nat.exists_eq_add_one.2 allowed.positive
  unfold perform CachedList.change Edit.onEntry
  dsimp only
  rw [if_neg (Nat.not_lt.2 allowed.few), Nat.add_sub_cancel, growTo, ofCount, getD_append_fresh]
  cases changed : (list.getD i .unbound).change change (i + 1) with
  | ok c => rfl
  | error e =>
    have padded := Edit.set_getD .unbound (list ++ List.replicate (i + 1 - list.length) .unbound) i
    rw [getD_append_fresh] at padded
    exact congrArg (Prod.mk _) padded.symm

end CachedList

/-- Changes of different parameters can be made in any order. -/
theorem edits_independent :
    Edit.Independent .unbound ParameterList.perform ∧ Edit.Independent .unbound CachedList.perform :=
  ⟨.of_onEntry ParameterList.perform_eq, .of_onEntry CachedList.perform_eq⟩

end ExtendedQuery
