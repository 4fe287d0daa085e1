import ExtendedQuery.Statement.Batched

/-!
# Shapes and rows of an insert

Shapes stand in ascending order. Changing or forgetting the shape of so many rows leaves the shapes of all
other numbers of rows as they were (`at?_update`, `at?_erase`, `at?_mapShape`), and so does each operation that
records something of a shape (`BatchedStatement.shapeAt`). A row is added if there is room for it
(`BatchedStatement.addRow_eq_ok`).
-/

namespace ExtendedQuery

namespace Shapes

def Ordered (shapes : Shapes) : Prop := shapes.Pairwise (·.1 < ·.1)

def preparedAt (shapes : Shapes) (rows : Nat) : Option (List Oid) :=
  ((shapes.at? rows).getD .unknown).prepared

@[simp] theorem at?_nil (rows : Nat) : at? [] rows = none := rfl

theorem at?_cons (entry : Nat × Shape) (later : Shapes) (rows : Nat) :
    at? (entry :: later) rows = if rows = entry.1 then some entry.2 else at? later rows := by
  obtain ⟨key, shape⟩ := entry
  unfold at?
  rw [List.lookup_cons]
  by_cases same : rows = key
  · simp [same]
  · simp [beq_eq_false_iff_ne.2 same, same]

theorem at?_eq_none {shapes : Shapes} {rows : Nat} (absent : ∀ entry ∈ shapes, entry.1 ≠ rows) :
    shapes.at? rows = none := by
  induction shapes with
  | nil => rfl
  | cons entry later ih =>
    rw [at?_cons, if_neg (absent entry (by simp)).symm, ih fun e member => absent e (by simp [member])]

theorem mem_parsedRows {shapes : Shapes} (ordered : shapes.Ordered) (rows : Nat) :
    rows ∈ shapes.parsedRows ↔ (shapes.preparedAt rows).isSome = true := by
  have step (entry : Nat × Shape) (later : Shapes) : rows ∈ parsedRows (entry :: later) ↔
      entry.2.prepared.isSome = true ∧ rows = entry.1 ∨ rows ∈ later.parsedRows := by
    unfold parsedRows
    cases parsed : entry.2.prepared.isSome <;> simp [parsed]
  induction shapes with
  | nil => simp [parsedRows, preparedAt, Shape.unknown]
  | cons first later ih =>
    obtain ⟨smaller, ordered⟩ := List.pairwise_cons.1 ordered
    have others : rows ∈ parsedRows later ↔ (preparedAt later rows).isSome = true := ih ordered
    rw [step, others, preparedAt, preparedAt, at?_cons]
    by_cases here : rows = first.1
    · have absent : at? later rows = none :=
        at?_eq_none fun entry member => here ▸ Nat.ne_of_gt (smaller entry member)
      rw [absent, if_pos here]
      simp [here, Shape.unknown]
    · simp [here]

theorem Ordered.nodup_parsedRows {shapes : Shapes} (ordered : shapes.Ordered) : shapes.parsedRows.Nodup :=
  List.pairwise_map.2 ((List.Pairwise.filter _ ordered).imp Nat.ne_of_lt)

theorem mem_update {rows : Nat} {change : Shape → Shape} {shapes : Shapes} {entry : Nat × Shape}
    (member : entry ∈ update rows change shapes) : entry.1 = rows ∨ entry ∈ shapes := by
  induction shapes with
  | nil =>
    simp only [update, List.mem_singleton] at member
    exact .inl (by rw [member])
  | cons first later ih =>
    unfold update at member
    split at member
    · rcases List.mem_cons.1 member with rfl | inside
      · exact .inl rfl
      · exact .inr (List.mem_cons_of_mem _ inside)
    split at member
    · rcases List.mem_cons.1 member with rfl | inside
      · exact .inl rfl
      · exact .inr inside
    · rcases List.mem_cons.1 member with rfl | inside
      · exact .inr (by simp)
      · exact (ih inside).imp_right (List.mem_cons_of_mem _)

theorem Ordered.update {rows : Nat} {change : Shape → Shape} {shapes : Shapes} (ordered : shapes.Ordered) :
    (update rows change shapes).Ordered := by
  induction shapes with
  | nil => exact List.pairwise_singleton _ _
  | cons first later ih =>
    obtain ⟨smaller, ordered⟩ := List.pairwise_cons.1 ordered
    unfold Shapes.update
    split
    · rename_i same
      exact List.pairwise_cons.2 ⟨fun entry member => same ▸ smaller entry member, ordered⟩
    split
    · rename_i below
      refine List.pairwise_cons.2 ⟨fun entry member => ?_, List.pairwise_cons.2 ⟨smaller, ordered⟩⟩
      rcases List.mem_cons.1 member with rfl | inside
      · exact below
      · exact Nat.lt_trans below (smaller entry inside)
    · rename_i different above
      refine List.pairwise_cons.2 ⟨fun entry member => ?_, ih ordered⟩
      rcases mem_update member with same | inside
      · omega
      · exact smaller entry inside

theorem at?_update {shapes : Shapes} (ordered : shapes.Ordered) (change : Shape → Shape) (rows r : Nat) :
    (shapes.update rows change).at? r =
      if r = rows then some (change ((shapes.at? rows).getD .unknown)) else shapes.at? r := by
  induction shapes with
  | nil => simp [update, at?_cons]
  | cons first later ih =>
    obtain ⟨smaller, ordered⟩ := List.pairwise_cons.1 ordered
    unfold update
    split
    · rename_i same
      by_cases here : r = first.1 <;> simp [at?_cons, same, here]
    split
    · rename_i different below
      have absent : at? (first :: later) rows = none := by
        refine at?_eq_none fun entry member => ?_
        rcases List.mem_cons.1 member with rfl | inside
        · exact Ne.symm different
        · exact Nat.ne_of_gt (Nat.lt_trans below (smaller entry inside))
      rw [at?_cons, absent]
      rfl
    · rename_i different above
      rw [at?_cons, ih ordered, at?_cons, at?_cons, if_neg different]
      by_cases here : r = first.1
      · rw [if_pos here, if_neg (by omega), if_pos here]
      · rw [if_neg here, if_neg here]

theorem Ordered.erase {shapes : Shapes} (ordered : shapes.Ordered) (rows : Nat) :
    (shapes.erase rows).Ordered := List.Pairwise.filter _ ordered

theorem at?_erase (shapes : Shapes) (rows r : Nat) :
    (shapes.erase rows).at? r = if r = rows then none else shapes.at? r := by
  induction shapes with
  | nil => simp [erase]
  | cons first later ih =>
    unfold erase at ih ⊢
    by_cases same : first.1 = rows
    · rw [List.filter_cons_of_neg (by simp [same]), ih, at?_cons, same]
      by_cases here : r = rows <;> simp [here]
    · rw [List.filter_cons_of_pos (by simp [same]), at?_cons, ih, at?_cons]
      by_cases here : r = first.1
      · rw [if_pos here, if_neg (by omega), if_pos here]
      · rw [if_neg here, if_neg here]

def mapShape (rows : Nat) (change : Shape → Shape) (shapes : Shapes) : Shapes :=
  shapes.map fun entry => if entry.1 = rows then (entry.1, change entry.2) else entry

theorem Ordered.mapShape {shapes : Shapes} (ordered : shapes.Ordered) (rows : Nat)
    (change : Shape → Shape) : (shapes.mapShape rows change).Ordered := by
  refine List.pairwise_map.2 (ordered.imp fun {a b} smaller => ?_)
  split <;> split <;> exact smaller

theorem at?_mapShape (shapes : Shapes) (change : Shape → Shape) (rows r : Nat) :
    (shapes.mapShape rows change).at? r =
      if r = rows then (shapes.at? r).map change else shapes.at? r := by
  induction shapes with
  | nil => simp [mapShape]
  | cons first later ih =>
    unfold mapShape at ih ⊢
    rw [List.map_cons, at?_cons, ih, at?_cons]
    by_cases same : first.1 = rows
    · rw [if_pos same]
      by_cases here : r = first.1
      · simp [here, same]
      · have there : r ≠ rows := same ▸ here
        simp [here, there]
    · rw [if_neg same]
      by_cases here : r = first.1
      · simp [here, same]
      · simp [here]

end Shapes

namespace BatchedStatement

def preparedAt (s : BatchedStatement) (rows : Nat) : Option (List Oid) := s.shapes.preparedAt rows

theorem prepared_eq (s : BatchedStatement) : s.prepared = s.preparedAt s.rows := rfl

theorem shapes_setTypes (s : BatchedStatement) (types : List Oid) :
    (s.setTypes types).shapes = s.shapes.mapShape s.rows fun shape =>
      { shape with prepared := shape.prepared.map (Oid.fill · types) } := rfl

def shapeAt (s : BatchedStatement) (rows : Nat) : Shape := (s.shapes.at? rows).getD .unknown

section

variable {s : BatchedStatement}

theorem shapeAt_update (ordered : s.shapes.Ordered) (rows : Nat) (change : Shape → Shape) (k : Nat) :
    ({ s with shapes := s.shapes.update rows change } : BatchedStatement).shapeAt k =
      if k = rows then change (s.shapeAt k) else s.shapeAt k := by
  unfold shapeAt
  rw [Shapes.at?_update ordered]
  by_cases here : k = rows
  · subst here
    rw [if_pos rfl, if_pos rfl]
    rfl
  · rw [if_neg here, if_neg here]

theorem shapeAt_markParsed (named : s.baseName.isUnnamed = false) (ordered : s.shapes.Ordered) (rows : Nat)
    (types : List Oid) (k : Nat) : (s.markParsed rows types).shapeAt k =
      if k = rows then { s.shapeAt k with prepared := some types } else s.shapeAt k := by
  unfold markParsed
  rw [if_neg (by simp [named])]
  exact shapeAt_update ordered rows _ k

theorem shapeAt_markDescribed (named : s.baseName.isUnnamed = false) (ordered : s.shapes.Ordered) (rows k : Nat) :
    (s.markDescribed rows).shapeAt k =
      if k = rows then { s.shapeAt k with described := true } else s.shapeAt k := by
  unfold markDescribed
  rw [if_neg (by simp [named])]
  exact shapeAt_update ordered rows _ k

theorem shapeAt_forget (k : Nat) :
    (s.setPrepared none).shapeAt k = if k = s.rows then .unknown else s.shapeAt k := by
  unfold setPrepared shapeAt
  dsimp only
  rw [Shapes.at?_erase]
  split <;> rfl

theorem shapeAt_report (types : List Oid) (k : Nat) : (s.setTypes types).shapeAt k =
    if k = s.rows then { s.shapeAt k with prepared := (s.shapeAt k).prepared.map (Oid.fill · types) }
      else s.shapeAt k := by
  unfold shapeAt
  rw [shapes_setTypes, Shapes.at?_mapShape]
  split
  · cases s.shapes.at? k <;> rfl
  · rfl

theorem preparedAt_setPrepared (named : s.baseName.isUnnamed = false) (ordered : s.shapes.Ordered)
    (types : Option (List Oid)) (r : Nat) :
    (s.setPrepared types).preparedAt r = if r = s.rows then types else s.preparedAt r := by
  cases types with
  | none =>
    have forgotten := congrArg Shape.prepared (shapeAt_forget (s := s) r)
    rw [apply_ite Shape.prepared] at forgotten
    exact forgotten
  | some types =>
    have parsed := congrArg Shape.prepared (shapeAt_markParsed named ordered s.rows types r)
    rw [apply_ite Shape.prepared] at parsed
    exact parsed

theorem preparedAt_setTypes (s : BatchedStatement) (types : List Oid) (r : Nat) :
    (s.setTypes types).preparedAt r =
      if r = s.rows then (s.preparedAt r).map (Oid.fill · types) else s.preparedAt r := by
  have reported := congrArg Shape.prepared (shapeAt_report (s := s) types r)
  rw [apply_ite Shape.prepared] at reported
  exact reported

theorem preparedAt_setFields (ordered : s.shapes.Ordered) (fields : List Field) (r : Nat) :
    (s.setFields fields).preparedAt r = s.preparedAt r := by
  simp only [setFields, markDescribed]
  split
  · rfl
  · have described := congrArg Shape.prepared
      (shapeAt_update ordered s.rows (fun shape => { shape with described := true }) r)
    rw [apply_ite Shape.prepared, ite_self] at described
    exact described

theorem ordered_markParsed (ordered : s.shapes.Ordered) (rows : Nat) (types : List Oid) :
    (s.markParsed rows types).shapes.Ordered := by
  unfold markParsed
  split
  · exact ordered
  · exact ordered.update

theorem ordered_markDescribed (ordered : s.shapes.Ordered) (rows : Nat) :
    (s.markDescribed rows).shapes.Ordered := by
  unfold markDescribed
  split
  · exact ordered
  · exact ordered.update

end

def IsFull (limit : Nat) (s : BatchedStatement) : Prop :=
  maxParameters < (s.rows + 1) * s.arity ∨ limit < s.rows + 1

section

variable {s t : BatchedStatement} {row : ParameterList}

theorem queueRow_of_full (full : s.IsFull s.maxRows) : s.queueRow = .error (.full s.rows) := if_pos full

theorem queueRow_of_room (room : ¬ s.IsFull s.maxRows) : s.queueRow = .ok (s.reshape (s.rows + 1)) :=
  if_neg room

theorem addRow_of_mismatch (mismatch : row.length ≠ s.arity) :
    s.addRow row = .error (.arityMismatch s.arity row.length) := if_pos mismatch

theorem addRow_first (length : row.length = s.arity) (first : s.pending = none) :
    s.addRow row = .ok { s with pending := some row } := by
  rw [addRow, if_neg (Decidable.not_not.2 length), first]

theorem addRow_later (length : row.length = s.arity) {queued : ParameterList} (later : s.pending = some queued) :
    s.addRow row = s.queueRow.map fun t => { t with pending := some (queued ++ row) } := by
  rw [addRow, if_neg (Decidable.not_not.2 length), later]
  cases s.queueRow <;> rfl

theorem queueRow_eq_ok (done : s.queueRow = .ok t) : ¬ s.IsFull s.maxRows ∧ t = s.reshape (s.rows + 1) := by
  by_cases full : s.IsFull s.maxRows
  · rw [queueRow_of_full full] at done
    cases done
  · rw [queueRow_of_room full] at done
    cases done
    exact ⟨full, rfl⟩

theorem addRow_eq_ok (done : s.addRow row = .ok t) : row.length = s.arity ∧
    (s.pending = none ∧ t = { s with pending := some row } ∨
      ∃ queued, s.pending = some queued ∧ ¬ s.IsFull s.maxRows ∧
        t = { s.reshape (s.rows + 1) with pending := some (queued ++ row) }) := by
  by_cases length : row.length = s.arity
  · refine ⟨length, ?_⟩
    cases pending : s.pending with
    | none =>
      rw [addRow_first length pending] at done
      cases done
      exact .inl ⟨rfl, rfl⟩
    | some queued =>
      rw [addRow_later length pending] at done
      cases grown : s.queueRow with
      | error e =>
        rw [grown] at done
        cases done
      | ok u =>
        rw [grown] at done
        cases done
        obtain ⟨room, rfl⟩ := queueRow_eq_ok grown
        exact .inr ⟨queued, rfl, room, rfl⟩
  · rw [addRow_of_mismatch length] at done
    cases done

theorem shapes_addRow (added : s.addRow row = .ok t) :
    t.shapes = s.shapes := by
  obtain ⟨-, ⟨-, rfl⟩ | ⟨queued, -, -, rfl⟩⟩ := addRow_eq_ok added <;> rfl

end

end BatchedStatement

end ExtendedQuery
