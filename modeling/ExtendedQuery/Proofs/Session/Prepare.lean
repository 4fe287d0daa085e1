import ExtendedQuery.Proofs.Session.Calls

/-!
# Preparing and closing queries

A query that was just prepared has names of its own, whose numbers were left in the supply, and agrees
with every server that holds none of them (`Query.prepare_taken`). Closing a query gives only names that
it has (`Query.mem_close`).
-/

namespace ExtendedQuery

/-- The kept names have different numbers, which were in the first supply and are not in the second. -/
structure NameSupply.Taken (names names' : NameSupply) (taken : List StatementName) : Prop where
  le : names.next ≤ names'.next
  distinct : (taken.filter (!·.isUnnamed)).Nodup
  numbered : ∀ name ∈ taken, name.isUnnamed = false →
    ∃ n, names.next ≤ n ∧ n < names'.next ∧ name = .numbered n

namespace NameSupply

theorem taken_nil (names : NameSupply) : Taken names names [] := by
  refine ⟨Nat.le_refl _, ?_, ?_⟩ <;> simp

theorem Taken.cons {first second third : NameSupply} {name : StatementName} {later : List StatementName}
    {kept : Bool} (take : first.take kept = (name, second)) (taken : Taken second third later) :
    Taken first third (name :: later) := by
  cases kept with
  | false =>
    cases take
    refine ⟨taken.le, taken.distinct, fun other member named => ?_⟩
    rcases List.mem_cons.1 member with rfl | inside
    · rw [StatementName.isUnnamed_unnamed] at named
      cases named
    · exact taken.numbered other inside named
  | true =>
    cases take
    have le := taken.le
    dsimp only at le
    refine ⟨by omega, ?_, fun other member named => ?_⟩
    · rw [List.filter_cons_of_pos (by simp), List.nodup_cons]
      refine ⟨fun member => ?_, taken.distinct⟩
      have inside := (List.mem_filter.1 member).1
      obtain ⟨n, above, -, same⟩ := taken.numbered _ inside (by simp)
      have number := StatementName.numbered_inj same
      dsimp only at above
      omega
    · rcases List.mem_cons.1 member with rfl | inside
      · exact ⟨first.next, Nat.le_refl _, by omega, rfl⟩
      · obtain ⟨n, above, below, same⟩ := taken.numbered other inside named
        dsimp only at above
        exact ⟨n, by omega, below, same⟩

theorem takeFor_taken (kept : Bool) (statements : List Sql.Fragments) (names : NameSupply) :
    Taken names (names.takeFor Statement.ofFragments kept statements).2
        ((names.takeFor Statement.ofFragments kept statements).1.map (·.name)) ∧
      ∀ s ∈ (names.takeFor Statement.ofFragments kept statements).1,
        ∃ fragments, s = Statement.ofFragments fragments s.name := by
  induction statements generalizing names with
  | nil => exact ⟨taken_nil names, by simp [takeFor]⟩
  | cons fragments statements ih =>
    obtain ⟨taken, made⟩ := ih (names.take kept).2
    refine ⟨taken.cons rfl, fun s member => ?_⟩
    rcases List.mem_cons.1 member with rfl | inside
    · exact ⟨fragments, rfl⟩
    · exact made s inside

end NameSupply

theorem Statement.agrees_ofFragments (fragments : Sql.Fragments) {name : StatementName} {held : Holdings}
    (free : name.isUnnamed = false → held name.text = none) :
    (Statement.ofFragments fragments name).Agrees held := by
  refine ⟨List.length_replicate, fun named => ?_, fun _ => rfl⟩
  change Reflects _ none (held name.text)
  rw [free named]
  exact .missing

theorem BatchedStatement.agrees_ofFragments {fragments : Sql.Fragments}
    (growable : fragments.isGrowable = true) {name : StatementName} (maxRows : Nat) {held : Holdings}
    (free : name.isUnnamed = false → ∀ rows, 0 < rows → held (name.ofRows rows).text = none) :
    (BatchedStatement.ofStatement (Statement.ofFragments fragments name) maxRows).Agrees held := by
  refine ⟨⟨Sql.Fragments.later_ne_nil_of_isGrowable growable, Nat.one_pos, List.length_replicate, ?_, List.Pairwise.nil⟩,
    fun named rows positive => ?_, fun _ => rfl⟩
  · exact List.length_replicate.trans (Nat.mul_one _).symm
  · change Reflects _ none (held (name.ofRows rows).text)
    rw [free named rows positive]
    exact .missing

namespace Query

inductive Made (kept : Bool) (config : Config) (names : NameSupply) : Query → NameSupply → Prop
  | single (fragments : Sql.Fragments) :
      Made kept config names (.single (.ofFragments fragments (names.take kept).1)) (names.take kept).2
  | batched {fragments : Sql.Fragments} : fragments.isGrowable = true →
      Made kept config names
        (.batched (.ofStatement (.ofFragments fragments (names.take kept).1) config.maxBatchRows)) (names.take kept).2
  | composite (statements : List Sql.Fragments) :
      Made kept config names (.composite (names.takeFor Statement.ofFragments kept statements).1)
        (names.takeFor Statement.ofFragments kept statements).2

theorem made_of_prepare {sql : Text} {kept : Bool} {caps : Capabilities} {config : Config}
    {names names' : NameSupply} {query : Query}
    (prepared : Query.prepare sql kept caps config names = .ok (query, names')) :
    Made kept config names query names' := by
  unfold prepare at prepared
  split at prepared
  · cases prepared
  · dsimp only at prepared
    split at prepared
    · rename_i grows
      rw [Bool.and_eq_true] at grows
      cases prepared
      exact .batched grows.2
    · cases prepared
      exact .single _
  · cases prepared
    exact .composite _

theorem prepare_taken {sql : Text} {kept : Bool} {caps : Capabilities} {config : Config}
    {names names' : NameSupply} {query : Query}
    (prepared : Query.prepare sql kept caps config names = .ok (query, names')) :
    NameSupply.Taken names names' query.names ∧
      ∀ held : Holdings, (∀ name ∈ query.keptNames, ∀ rows, 0 < rows → held (name.ofRows rows).text = none) →
        query.Agrees held := by
  have free : ∀ {held : Holdings} {name : StatementName},
      (∀ base ∈ [name].filter (!·.isUnnamed), ∀ rows, 0 < rows → held (base.ofRows rows).text = none) →
        name.isUnnamed = false → ∀ rows, 0 < rows → held (name.ofRows rows).text = none :=
    fun nothing named => nothing _ (List.mem_filter.2 ⟨by simp, by simp [named]⟩)
  cases made_of_prepare prepared with
  | single fragments =>
    refine ⟨(NameSupply.taken_nil _).cons rfl, fun held nothing => ?_⟩
    apply Statement.agrees_ofFragments
    intro named
    rw [← StatementName.ofRows_one (names.take kept).1]
    exact free nothing named 1 Nat.one_pos
  | batched growable =>
    refine ⟨(NameSupply.taken_nil _).cons rfl, fun held nothing => ?_⟩
    exact BatchedStatement.agrees_ofFragments growable _ (free nothing)
  | composite statements =>
    obtain ⟨taken, made⟩ := NameSupply.takeFor_taken kept statements names
    refine ⟨taken, fun held nothing s member => ?_⟩
    obtain ⟨fragments, same⟩ := made s member
    rw [same]
    refine Statement.agrees_ofFragments _ fun named => ?_
    rw [← StatementName.ofRows_one s.name]
    exact nothing s.name (mem_keptNames.2 ⟨List.mem_map_of_mem member, named⟩) 1 Nat.one_pos

theorem mem_close {query : Query} {held : Holdings} (agrees : query.Agrees held) {name : StatementName}
    (member : name ∈ query.close.2) : ∃ base ∈ query.keptNames, ∃ rows, name = base.ofRows rows := by
  have single : ∀ s : Statement, s.close.2 = some name → name = s.name ∧ s.name.isUnnamed = false := by
    intro s closed
    simp only [Statement.close, Option.ite_none_right_eq_some, Bool.and_eq_true, Bool.not_eq_true',
      Option.some.injEq] at closed
    exact ⟨closed.2.symm, closed.1.2⟩
  cases query with
  | single s =>
    obtain ⟨rfl, named⟩ := single s (Option.mem_toList.1 member)
    exact ⟨s.name, mem_keptNames.2 ⟨by simp [names], named⟩, 1, (StatementName.ofRows_one _).symm⟩
  | batched s =>
    cases unnamed : s.baseName.isUnnamed with
    | true => simp [close, BatchedStatement.close, agrees.unnamed unnamed, Shapes.parsedRows] at member
    | false =>
      obtain ⟨rows, -, rfl⟩ := List.mem_map.1 member
      exact ⟨s.baseName, mem_keptNames.2 ⟨by simp [names], unnamed⟩, rows, rfl⟩
  | composite statements =>
    obtain ⟨s, inside, closed⟩ := List.mem_filterMap.1 member
    obtain ⟨rfl, named⟩ := single s closed
    exact ⟨s.name, mem_keptNames.2 ⟨List.mem_map_of_mem inside, named⟩, 1, (StatementName.ofRows_one _).symm⟩

end Query

end ExtendedQuery
