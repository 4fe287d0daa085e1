import ExtendedQuery.Proofs.Session.Reaching

/-!
# Outlines

The outline of a query is what preparing it has made: its fragments, its names and the number of rows that an
insert takes. No call changes the outline of a query (`Query.Reaches.outline`).
-/

namespace ExtendedQuery

def Statement.outline (s : Statement) : Statement := .ofFragments s.fragments s.name

def BatchedStatement.outline (s : BatchedStatement) : BatchedStatement :=
  { BatchedStatement.ofStatement (.ofFragments s.base s.baseName) s.maxRows with maxRows := s.maxRows }

def Query.outline : Query → Query
  | .single s => .single s.outline
  | .batched s => .batched s.outline
  | .composite statements => .composite (statements.map Statement.outline)

theorem Statement.Reaches.outline {s t : Statement} (reaches : s.Reaches t) : t.outline = s.outline := by
  induction reaches with
  | refl => rfl
  | exchanged _ exchanged ih =>
    obtain ⟨name, -, fragments⟩ := Tracked.eq_of_bare exchanged.bare
    rw [← ih, Statement.outline, Statement.outline]
    exact congrArg₂ Statement.ofFragments fragments name
  | close _ ih => exact ih

theorem BatchedStatement.Reaches.outline {s t : BatchedStatement} (reaches : s.Reaches t) :
    t.outline = s.outline := by
  induction reaches with
  | refl => rfl
  | exchanged _ exchanged ih =>
    obtain ⟨base, baseName, maxRows, -⟩ := eq_of_bare exchanged.bare
    rw [← ih, BatchedStatement.outline, base, baseName, maxRows]
    rfl
  | call _ _ _ done ih =>
    have changes := attempt_changes done
    rw [← ih, BatchedStatement.outline, changes.base, changes.baseName, changes.maxRows]
    rfl
  | take _ ih => exact ih

namespace Query

theorem Reaches.outline {query query' : Query} (reaches : query.Reaches query') : query'.outline = query.outline := by
  cases reaches with
  | single reaches => exact congrArg Query.single reaches.outline
  | batched reaches => exact congrArg Query.batched reaches.outline
  | composite reaches =>
    apply congrArg Query.composite
    induction reaches with
    | nil => rfl
    | cons first _ ih => rw [List.map_cons, List.map_cons, first.outline, ih]

theorem names_outline (query : Query) : query.outline.names = query.names := by
  cases query with
  | single s => rfl
  | batched s => rfl
  | composite statements =>
    unfold outline names
    dsimp only
    rw [List.map_map]
    rfl

theorem Reaches.names {query query' : Query} (reaches : query.Reaches query') : query'.names = query.names := by
  rw [← names_outline, reaches.outline, names_outline]

end Query

end ExtendedQuery
