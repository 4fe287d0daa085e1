import ExtendedQuery.Parameter.Composite
import Mathlib

/-!
# Places in a concatenation

An index is routed to the place at which the concatenation of the lists has it (`IsPlace`). There is one such
place for every index from 1 to the number of parameters (`IsPlace.unique`), and the search through the offsets
finds it, however many lists without parameters stand around it (`locate_ofLists`).
-/

namespace ExtendedQuery

namespace RoutedLists

def before (lists : List ParameterList) (k : Nat) : Nat := ((lists.take k).map List.length).sum

@[simp] theorem before_zero (lists : List ParameterList) : before lists 0 = 0 := rfl

@[simp] theorem before_cons_succ (list : ParameterList) (later : List ParameterList) (k : Nat) :
    before (list :: later) (k + 1) = list.length + before later k := rfl

theorem before_length (lists : List ParameterList) : before lists lists.length = lists.flatten.length := by
  rw [before, List.take_length, List.length_flatten]

theorem before_succ {lists : List ParameterList} {k : Nat} (inside : k < lists.length) :
    before lists (k + 1) = before lists k + (lists.getD k []).length := by
  rw [before, before, List.take_succ_eq_append_getElem inside, List.getD_eq_getElem _ _ inside, List.map_append,
    List.sum_append]
  rfl

theorem before_mono (lists : List ParameterList) {i k : Nat} (le : i ≤ k) : before lists i ≤ before lists k := by
  have split : lists.take k = lists.take i ++ (lists.take k).drop i := by
    conv_lhs => rw [← List.take_append_drop i (lists.take k), List.take_take, Nat.min_eq_left le]
  rw [before, before, split, List.map_append, List.sum_append]
  exact Nat.le_add_right _ _

theorem offsetsFrom_eq (total : Nat) (lists : List ParameterList) :
    offsetsFrom total lists =
      ((List.range lists.length).map fun k => total + before lists k, total + lists.flatten.length) := by
  induction lists generalizing total with
  | nil => rfl
  | cons list later ih =>
    rw [offsetsFrom, ih, List.length_cons, List.range_succ_eq_map, List.flatten_cons, List.length_append]
    simp [Nat.add_assoc]

theorem ofLists_eq (lists : List ParameterList) :
    ofLists lists = ⟨lists, (List.range lists.length).map (before lists), lists.flatten.length⟩ := by
  simp [ofLists, offsetsFrom_eq]

@[simp] theorem lists_ofLists (lists : List ParameterList) : (ofLists lists).lists = lists := rfl

theorem offset_ofLists {lists : List ParameterList} {k : Nat} (inside : k < lists.length) :
    (ofLists lists).offsets.getD k 0 = before lists k := by
  rw [ofLists_eq, List.getD_eq_getElem _ _ (by simpa using inside)]
  simp

theorem total_ofLists (lists : List ParameterList) : (ofLists lists).total = lists.flatten.length := by
  rw [ofLists_eq]

theorem routing_eq_iff {lists others : List ParameterList} :
    (ofLists others).offsets = (ofLists lists).offsets ∧ (ofLists others).total = (ofLists lists).total ↔
      others.map List.length = lists.map List.length := by
  constructor
  · intro ⟨offsets, total⟩
    have count : others.length = lists.length := by
      simpa [ofLists_eq] using congrArg List.length offsets
    have ends {k : Nat} (inside : k ≤ lists.length) : before others k = before lists k := by
      rcases Nat.lt_or_eq_of_le inside with inside | rfl
      · rw [← offset_ofLists inside, ← offset_ofLists (count ▸ inside), offsets]
      · rw [before_length, ← count, before_length, ← total_ofLists, ← total_ofLists, total]
    apply List.ext_getElem (by simp [count])
    intro k inside inside'
    rw [List.length_map] at inside inside'
    have first := before_succ inside
    have second := before_succ inside'
    rw [ends (k := k + 1) inside', ends (Nat.le_of_lt inside')] at first
    rw [List.getElem_map, List.getElem_map, ← List.getD_eq_getElem _ [] inside, ← List.getD_eq_getElem _ [] inside']
    omega
  · intro same
    have count : others.length = lists.length := by simpa using congrArg List.length same
    have before_eq : before others = before lists := by
      funext k
      rw [before, before, List.map_take, List.map_take, same]
    rw [ofLists_eq, ofLists_eq, before_eq, count]
    refine ⟨rfl, ?_⟩
    rw [List.length_flatten, List.length_flatten, same]

structure Divides (offsets : List Nat) (index n : Nat) : Prop where
  inside : n ≤ offsets.length
  below : ∀ k < n, offsets.getD k 0 < index
  above : ∀ k, n ≤ k → k < offsets.length → index ≤ offsets.getD k 0

theorem search_divides {offsets : List Nat} (sorted : ∀ i k, i ≤ k → k < offsets.length →
      offsets.getD i 0 ≤ offsets.getD k 0) {index low high : Nat} (ordered : low ≤ high)
    (inside : high ≤ offsets.length) (below : ∀ k < low, offsets.getD k 0 < index)
    (above : ∀ k, high ≤ k → k < offsets.length → index ≤ offsets.getD k 0) :
    Divides offsets index (search offsets index low high) := by
  fun_induction search offsets index low high with
  | case1 low high between middle left ih =>
    have bound : middle < offsets.length := by omega
    apply ih (by omega) inside _ above
    intro k lt
    exact Nat.lt_of_le_of_lt (sorted k middle (by omega) bound) left
  | case2 low high between middle right ih =>
    apply ih (by omega) (by omega) below
    intro k ge lt
    exact Nat.le_trans (Nat.not_lt.1 right) (sorted middle k ge lt)
  | case3 low high closed =>
    have met : low = high := by omega
    exact ⟨met ▸ inside, below, met ▸ above⟩

theorem search_ofLists (lists : List ParameterList) (index : Nat) :
    Divides (ofLists lists).offsets index
      (search (ofLists lists).offsets index 0 (ofLists lists).offsets.length) := by
  have length : (ofLists lists).offsets.length = lists.length := by simp [ofLists_eq]
  apply search_divides _ (Nat.zero_le _) (Nat.le_refl _)
  · intro k lt
    exact absurd lt (Nat.not_lt_zero k)
  · intro k ge lt
    exact absurd lt (Nat.not_lt.2 ge)
  · intro i k le lt
    rw [length] at lt
    rw [offset_ofLists lt, offset_ofLists (by omega)]
    exact before_mono lists le

/-- The concatenation of the lists has the index where list `k`, counted from 0, has the index `j`. -/
structure IsPlace (lists : List ParameterList) (index k j : Nat) : Prop where
  inside : k < lists.length
  positive : 1 ≤ j
  below : j ≤ (lists.getD k []).length
  position : index = before lists k + j

theorem IsPlace.unique {lists : List ParameterList} {index k j k' j' : Nat} (place : IsPlace lists index k j)
    (place' : IsPlace lists index k' j') : k = k' ∧ j = j' := by
  -- a later list starts behind all parameters of an earlier one
  have later {k j k' j' : Nat} (place : IsPlace lists index k j) (place' : IsPlace lists index k' j') : k' ≤ k := by
    by_contra lt
    have ends := before_succ place.inside
    have starts := before_mono lists (i := k + 1) (Nat.not_le.1 lt)
    have := place.below
    have := place.position
    have := place'.positive
    have := place'.position
    omega
  obtain rfl := Nat.le_antisymm (later place' place) (later place place')
  have := place.position
  have := place'.position
  exact ⟨rfl, by omega⟩

theorem IsPlace.range {lists : List ParameterList} {index k j : Nat} (place : IsPlace lists index k j) :
    1 ≤ index ∧ index ≤ lists.flatten.length := by
  have ends := before_succ place.inside
  have last := before_mono lists (i := k + 1) place.inside
  rw [before_length] at last
  have := place.positive
  have := place.below
  have := place.position
  omega

theorem locate_ok {lists : List ParameterList} {index : Nat} (positive : 1 ≤ index)
    (below : index ≤ lists.flatten.length) :
    ∃ k j, (ofLists lists).locate index = .ok (k, j) ∧ IsPlace lists index k j := by
  have inRange : ¬ (index = 0 ∨ (ofLists lists).total < index) := by
    rw [total_ofLists]
    omega
  have divides := search_ofLists lists index
  have length : (ofLists lists).offsets.length = lists.length := by simp [ofLists_eq]
  rw [locate, if_neg inRange]
  dsimp only
  generalize search (ofLists lists).offsets index 0 (ofLists lists).offsets.length = n at divides ⊢
  have nonempty : 0 < lists.length := by
    cases lists with
    | nil => simp at below; omega
    | cons => simp
  have found : n ≠ 0 := by
    rintro rfl
    have first := divides.above 0 (Nat.le_refl 0) (length ▸ nonempty)
    rw [offset_ofLists nonempty, before_zero] at first
    omega
  obtain ⟨k, rfl⟩ := Nat.exists_eq_add_one_of_ne_zero found
  have inside : k < lists.length := length ▸ divides.inside
  have starts := divides.below k (Nat.lt_succ_self k)
  have ends : index ≤ before lists (k + 1) := by
    rcases Nat.lt_or_eq_of_le (Nat.succ_le_of_lt inside) with next | last
    · have above := divides.above (k + 1) (Nat.le_refl _) (length ▸ next)
      rwa [offset_ofLists next] at above
    · rw [show k + 1 = lists.length from last, before_length]
      exact below
  rw [Nat.add_sub_cancel]
  rw [offset_ofLists inside] at starts ⊢
  rw [before_succ inside] at ends
  exact ⟨k, _, rfl, inside, by omega, by omega, by omega⟩

theorem locate_ofLists {lists : List ParameterList} {index k j : Nat} :
    (ofLists lists).locate index = .ok (k, j) ↔ IsPlace lists index k j := by
  constructor
  · intro located
    have inRange : ¬ (index = 0 ∨ (ofLists lists).total < index) := by
      intro outside
      rw [locate, if_pos outside] at located
      cases located
    rw [total_ofLists] at inRange
    have positive : 1 ≤ index := by omega
    have below : index ≤ lists.flatten.length := by omega
    obtain ⟨k', j', located', place⟩ := locate_ok positive below
    cases located.symm.trans located'
    exact place
  · intro place
    obtain ⟨k', j', located, place'⟩ := locate_ok place.range.1 place.range.2
    obtain ⟨rfl, rfl⟩ := place.unique place'
    exact located

example : (ofLists [[], [.unbound], [], [.unbound, .unbound]]).locate 2 = .ok (3, 1) :=
  locate_ofLists.2 ⟨by decide, by decide, by decide, rfl⟩

theorem locate_outside {r : RoutedLists} {index : Nat} (outside : ¬ (1 ≤ index ∧ index ≤ r.total)) :
    r.locate index = .error (.indexOutOfRange index r.total) := if_pos (by omega)

end RoutedLists

namespace CompositeParameters

def owner? : (lists : CompositeParameters) → (index : Nat) → Option (Nat × Nat)
  | [], _ => none
  | list :: later, index =>
    if index ≤ list.length then some (0, index)
    else (owner? later (index - list.length)).map fun (number, index) => (number + 1, index)

theorem owner?_eq_some_iff {lists : CompositeParameters} {index k j : Nat} (positive : 1 ≤ index) :
    lists.owner? index = some (k, j) ↔ RoutedLists.IsPlace lists index k j := by
  induction lists generalizing index k with
  | nil =>
    constructor
    · intro owner
      cases owner
    · intro place
      exact absurd place.inside (Nat.not_lt_zero k)
  | cons list later ih =>
    rw [owner?]
    by_cases here : index ≤ list.length
    · have first : RoutedLists.IsPlace (list :: later) index 0 index := ⟨by simp, positive, here, by simp⟩
      rw [if_pos here]
      constructor
      · intro same
        cases same
        exact first
      · intro place
        obtain ⟨rfl, rfl⟩ := first.unique place
        rfl
    · rw [if_neg here, Option.map_eq_some_iff]
      constructor
      · intro ⟨(number, local'), owner, same⟩
        cases same
        have place := (ih (by omega)).1 owner
        have := place.position
        exact ⟨by simpa using place.inside, place.positive, place.below, by
          rw [RoutedLists.before_cons_succ]
          omega⟩
      · intro place
        cases k with
        | zero =>
          have := place.below
          have := place.position
          simp at *
          omega
        | succ k =>
          have := place.position
          rw [RoutedLists.before_cons_succ] at this
          exact ⟨(k, j), (ih (by omega)).2 ⟨by simpa using place.inside, place.positive, place.below, by omega⟩, rfl⟩

theorem locate_eq_owner? (lists : CompositeParameters) {index : Nat} (positive : 1 ≤ index) :
    (lists.locate index).toOption = lists.owner? index := by
  apply Option.ext
  intro (k, j)
  rw [owner?_eq_some_iff positive, ← RoutedLists.locate_ofLists, CompositeParameters.locate]
  cases (RoutedLists.ofLists lists).locate index <;> simp [Except.toOption]

end CompositeParameters

end ExtendedQuery
