import ExtendedQuery.Proofs.Batch.Fitting

/-!
# The first parameter without a value

A list that is not complete is refused by the number of its first unbound parameter
(`ParameterList.FirstUnbound`), both where it is only checked and where its values are written:
`checkAllSet_error_iff`, `wireValues_of_firstUnbound`.
-/

namespace ExtendedQuery

theorem mapM_of_first_error {α β ε : Type} {f : α → Except ε β} {front later : List α} {a : α} {e : ε}
    (passed : ∀ a ∈ front, ∃ b, f a = .ok b) (failed : f a = .error e) :
    (front ++ a :: later).mapM f = .error e := by
  induction front with
  | nil =>
    rw [List.nil_append, List.mapM_cons, failed]
    rfl
  | cons b front ih =>
    obtain ⟨value, ok⟩ := passed b (by simp)
    rw [List.cons_append, List.mapM_cons, ok, ih fun c member => passed c (by simp [member])]
    rfl

namespace ParameterList

def FirstUnbound (list : ParameterList) (index : Nat) : Prop :=
  ∃ front p later, list = front ++ p :: later ∧ (∀ q ∈ front, q.isBound = true) ∧ p.isBound = false ∧
    index = front.length + 1

theorem exists_firstUnbound {list : ParameterList} {p : Parameter} (member : p ∈ list) (unbound : p.isBound = false) :
    ∃ index, list.FirstUnbound index := by
  cases found : list.find? (!·.isBound) with
  | none =>
    have bound := List.find?_eq_none.1 found p member
    simp [unbound] at bound
  | some q =>
    obtain ⟨unbound, front, later, rfl, bound⟩ := List.find?_eq_some_iff_append.1 found
    exact ⟨_, front, q, later, rfl, by simpa using bound, by simpa using unbound, rfl⟩

theorem FirstUnbound.append {list : ParameterList} {index : Nat} (first : list.FirstUnbound index)
    {front : ParameterList} (bound : ∀ q ∈ front, q.isBound = true) (later : ParameterList) :
    FirstUnbound (front ++ (list ++ later)) (front.length + index) := by
  obtain ⟨inner, p, rest, rfl, innerBound, unbound, rfl⟩ := first
  refine ⟨front ++ inner, p, rest ++ later, by simp, ?_, unbound, by simp [Nat.add_assoc]⟩
  intro q member
  rcases List.mem_append.1 member with member | member
  · exact bound q member
  · exact innerBound q member

theorem checkAllSet_of_firstUnbound {list : ParameterList} {index : Nat} (first : list.FirstUnbound index) :
    list.checkAllSet = .error (.unbound index) := by
  obtain ⟨front, p, later, rfl, bound, unbound, rfl⟩ := first
  have skipped : front.findIdx? (!·.isBound) = none := by
    rw [List.findIdx?_eq_none_iff]
    intro q member
    rw [bound q member]
    rfl
  have found : (front ++ p :: later).findIdx? (!·.isBound) = some front.length := by
    simp [List.findIdx?_append, skipped, List.findIdx?_cons, unbound]
  rw [checkAllSet, found]

theorem checkAllSet_error_iff {list : ParameterList} {e : BindError} :
    list.checkAllSet = .error e ↔ ∃ index, list.FirstUnbound index ∧ e = .unbound index := by
  constructor
  · intro refused
    have incomplete : ¬ ∀ p ∈ list, p.isBound = true := by
      rw [← checkAllSet_ok, refused]
      nofun
    simp only [not_forall, Bool.not_eq_true] at incomplete
    obtain ⟨p, member, unbound⟩ := incomplete
    obtain ⟨index, first⟩ := exists_firstUnbound member unbound
    rw [checkAllSet_of_firstUnbound first] at refused
    cases refused
    exact ⟨index, first, rfl⟩
  · rintro ⟨index, first, rfl⟩
    exact checkAllSet_of_firstUnbound first

theorem FirstUnbound.unique {list : ParameterList} {i j : Nat} (first : list.FirstUnbound i)
    (first' : list.FirstUnbound j) : i = j := by
  have same := checkAllSet_of_firstUnbound first
  rw [checkAllSet_of_firstUnbound first'] at same
  cases same
  rfl

theorem wireValues_of_firstUnbound {list : ParameterList} {index : Nat} (first : list.FirstUnbound index)
    (short : list.Short) : list.wireValues = .error (.unbound index) := by
  obtain ⟨front, p, later, rfl, bound, unbound, rfl⟩ := first
  rw [wireValues, List.zipIdx_append, List.zipIdx_cons]
  apply mapM_of_first_error
  · intro (q, number) inside
    have member := List.fst_mem_of_mem_zipIdx inside
    exact ⟨_, wireValue_eq (bound q member) (short q (by simp [member])) number⟩
  · have slot : p.slot = .unbound := by simpa [Parameter.isBound] using unbound
    dsimp only
    rw [Parameter.wireValue, slot, Nat.add_comm]

end ParameterList

end ExtendedQuery
