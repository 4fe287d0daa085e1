import ExtendedQuery.Proofs.Batch.Fitting
import ExtendedQuery.Proofs.Session.Calls

/-!
# Groups of rows

The rows of a batch for an insert are queued in groups, each as large as the insert can grow but the last
one (`groupsOf`, `Queued.addRow`, `Queued.full`). A group that is queued is executed by one pipeline, which
is bound to the parameters of its rows one after the other (`Queued.carries`, `Queued.flush`).
-/

namespace ExtendedQuery

open Wire Connection

def groupsOf {α : Type} (size : Nat) (rows : List α) : List (List α) :=
  if _some : 0 < size ∧ rows ≠ [] then rows.take size :: groupsOf size (rows.drop size) else []
termination_by rows.length
decreasing_by
  have nonempty := List.length_pos_iff.2 _some.2
  rw [List.length_drop]
  omega

section

variable {α : Type} {size : Nat}

@[simp] theorem groupsOf_nil : groupsOf size ([] : List α) = [] := by
  rw [groupsOf, dif_neg (by simp)]

theorem groupsOf_append (positive : 0 < size) {group : List α} (full : group.length = size) (later : List α) :
    groupsOf size (group ++ later) = group :: groupsOf size later := by
  have nonempty : group ++ later ≠ [] := by
    rintro none
    rw [(List.append_eq_nil_iff.1 none).1] at full
    exact Nat.ne_of_lt positive full
  rw [groupsOf, dif_pos ⟨positive, nonempty⟩, List.take_left' full, List.drop_left' full]

theorem groupsOf_single (positive : 0 < size) {group : List α} (nonempty : group ≠ [])
    (short : group.length ≤ size) : groupsOf size group = [group] := by
  rw [groupsOf, dif_pos ⟨positive, nonempty⟩, List.take_of_length_le short, List.drop_of_length_le short,
    groupsOf_nil]

theorem flatten_groupsOf (positive : 0 < size) (rows : List α) : (groupsOf size rows).flatten = rows := by
  fun_induction groupsOf size rows with
  | case1 rows _ ih => rw [List.flatten_cons, ih, List.take_append_drop]
  | case2 rows none =>
    rw [not_and, not_not] at none
    rw [none positive, List.flatten_nil]

theorem getElem?_flatten {rows : List (List α)} (each : ∀ row ∈ rows, row.length = size) (r : Nat) {j : Nat}
    (below : j < size) : rows.flatten[r * size + j]? = rows[r]?.bind (·[j]?) := by
  induction rows generalizing r with
  | nil => simp
  | cons row rows ih =>
    have length := each row (by simp)
    rw [List.flatten_cons]
    cases r with
    | zero =>
      rw [Nat.zero_mul, Nat.zero_add, List.getElem?_append_left (by omega)]
      rfl
    | succ r =>
      rw [List.getElem?_append_right (by rw [length, Nat.succ_mul]; omega),
        show (r + 1) * size + j - row.length = r * size + j by rw [length, Nat.succ_mul]; omega,
        ih (fun other member => each other (by simp [member]))]
      rfl

end

def BatchedStatement.groupSize (s : BatchedStatement) : Nat :=
  max 1 (min s.maxRows (maxParameters / s.arity))

/-- A bind carries a group of rows, to the statement that has grown to as many. -/
structure Carries (s : BatchedStatement) (texts : Texts) (group : List ParameterList)
    (front : List FrontendMessage) (bind : Bind) : Prop where
  alone : ∀ m ∈ front, ∀ b, m ≠ .bind b
  statement : bind.statement = (s.baseName.ofRows group.length).text
  reaches : texts.afterAll front bind.statement = some (s.sqlOf group.length)
  count : bind.values.length = group.length * s.arity
  formats : bind.formats = group.flatten.map (·.format)
  values : bind.values = group.flatten.map (·.bytes?)
  placeholder : ∀ r j row parameter, group[r]? = some row → row[j]? = some parameter →
    bind.formats[r * s.arity + j]? = some parameter.format ∧
      bind.values[r * s.arity + j]? = some parameter.bytes?

def groupOutcomes (rows affected : Nat) : List RowOutcome :=
  if rows = 1 then [.affected affected] else List.replicate rows .merged

/-- Groups of rows with the pipelines that insert them, the rows that these have affected, and the outcomes
of the rows. -/
inductive Merges (s : BatchedStatement) : Texts → (groups : List (List ParameterList)) →
    List (List Request) → (affected : List (List Nat)) → List RowOutcome → Prop
  | nil {texts : Texts} : Merges s texts [] [] [] []
  | cons {texts : Texts} {group : List ParameterList} {groups : List (List ParameterList)}
      {requests : List Request} {pipelines : List (List Request)} {front : List FrontendMessage} {bind : Bind}
      {affected : Nat} {counts : List (List Nat)} {outcomes : List RowOutcome} :
      requests.map (·.message) = front ++ [.bind bind, .execute "" 0] → Carries s texts group front bind →
      Merges s (texts.afterAll (pipelineOf requests)) groups pipelines counts outcomes →
      Merges s texts (group :: groups) (requests :: pipelines) ([affected] :: counts)
        (groupOutcomes group.length affected ++ outcomes)

inductive Answers : List (List Request) → (incoming : Bytes) → (affected : List (List Nat)) → (rest : Bytes) →
    Prop
  | nil {incoming : Bytes} : Answers [] incoming [] incoming
  | cons {requests : List Request} {pipelines : List (List Request)} {replies : List BackendMessage}
      {counts : List Nat} {others : List (List Nat)} {incoming middle rest : Bytes} :
      Answered (pipelineOf requests) replies counts → Delivers replies incoming middle →
      Answers pipelines middle others rest → Answers (requests :: pipelines) incoming (counts :: others) rest

structure Queued (s t : BatchedStatement) (group : List ParameterList) : Prop where
  base : t.base = s.base
  baseName : t.baseName = s.baseName
  maxRows : t.maxRows = s.maxRows
  rows : t.rows = max 1 group.length
  pending : t.pending = if group = [] then none else some group.flatten

section

variable {s t : BatchedStatement} {group : List ParameterList}

theorem Queued.arity (queued : Queued s t group) : t.arity = s.arity := by
  rw [BatchedStatement.arity, BatchedStatement.arity, queued.base]

theorem Queued.rows_of_ne_nil (queued : Queued s t group) (nonempty : group ≠ []) : t.rows = group.length := by
  have positive := List.length_pos_iff.2 nonempty
  rw [queued.rows]
  omega

theorem full_iff (marks : 0 < s.arity) {rows : Nat} (positive : 0 < rows) :
    maxParameters < (rows + 1) * s.arity ∨ s.maxRows < rows + 1 ↔ s.groupSize < rows + 1 := by
  rw [← Nat.div_lt_iff_lt_mul marks, BatchedStatement.groupSize]
  omega

theorem Queued.addRow (queued : Queued s t group) (marks : 0 < s.arity)
    (room : group = [] ∨ group.length < s.groupSize) {row : ParameterList} (length : row.length = s.arity) :
    ∃ u, t.addRow row = .ok u ∧ Queued s u (group ++ [row]) ∧ u.shapes = t.shapes := by
  have fitting : row.length = t.arity := length.trans queued.arity.symm
  by_cases none : group = []
  · subst none
    have first := BatchedStatement.addRow_first fitting queued.pending
    refine ⟨_, first, ⟨queued.base, queued.baseName, queued.maxRows, queued.rows, ?_⟩, rfl⟩
    simp
  · have positive := List.length_pos_iff.2 none
    have below := room.resolve_left none
    have rows := queued.rows_of_ne_nil none
    have fits : ¬ t.IsFull t.maxRows := by
      rw [BatchedStatement.IsFull, queued.arity, queued.maxRows, rows, full_iff marks positive]
      omega
    have grown := BatchedStatement.addRow_later fitting (queued.pending.trans (if_neg none))
    rw [BatchedStatement.queueRow_of_room fits] at grown
    refine ⟨_, grown, ⟨queued.base, queued.baseName, queued.maxRows, ?_, ?_⟩, rfl⟩
    · change t.rows + 1 = _
      rw [rows, List.length_append, List.length_singleton]
      omega
    · simp

theorem Queued.full (queued : Queued s t group) (marks : 0 < s.arity) (nonempty : group ≠ [])
    (full : group.length = s.groupSize) {row : ParameterList} (length : row.length = s.arity) :
    t.addRow row = .error (.full t.rows) := by
  have positive := List.length_pos_iff.2 nonempty
  have rows := queued.rows_of_ne_nil nonempty
  have none : t.IsFull t.maxRows := by
    rw [BatchedStatement.IsFull, queued.arity, queued.maxRows, rows, full_iff marks positive]
    omega
  rw [BatchedStatement.addRow_later (length.trans queued.arity.symm) (queued.pending.trans (if_neg nonempty)),
    BatchedStatement.queueRow_of_full none]
  rfl

theorem Queued.reset (queued : Queued s t group) : Queued s t.reset [] := by
  obtain ⟨base, baseName, -⟩ := t.reset_same
  obtain ⟨rows, pending, maxRows⟩ := t.reset_single
  exact ⟨base.trans queued.base, baseName.trans queued.baseName, maxRows.trans queued.maxRows, rows, pending⟩

theorem Queued.backed {group' : List ParameterList} {u : BatchedStatement} (queued : Queued s t group)
    (queued' : Queued s u group') (shapes : u.shapes = t.shapes) {texts : Texts} (backed : t.Backed texts) :
    u.Backed texts := by
  refine backed.of_shapes ?_ (queued'.base.trans queued.base.symm)
    (queued'.baseName.trans queued.baseName.symm) shapes
  rw [queued'.rows]
  exact Nat.le_max_left _ _

def Complete (s : BatchedStatement) (rows : List ParameterList) : Prop :=
  ∀ row ∈ rows, row.length = s.arity ∧ ∀ p ∈ row, p.isBound = true

theorem Complete.length (complete : Complete s group) : group.flatten.length = group.length * s.arity := by
  induction group with
  | nil => simp
  | cons row group ih =>
    have later := ih fun other member => complete other (by simp [member])
    rw [List.flatten_cons, List.length_append, (complete row (by simp)).1, later, List.length_cons,
      Nat.succ_mul, Nat.add_comm]

theorem Complete.bound (complete : Complete s group) : ∀ p ∈ group.flatten, p.isBound = true := by
  intro p member
  obtain ⟨row, inside, here⟩ := List.mem_flatten.1 member
  exact (complete row inside).2 p here

theorem carries_of_values (complete : Complete s group) {texts : Texts} {front : List FrontendMessage}
    {bind : Bind} (alone : ∀ m ∈ front, ∀ b, m ≠ .bind b)
    (statement : bind.statement = (s.baseName.ofRows group.length).text)
    (reaches : texts.afterAll front (s.baseName.ofRows group.length).text = some (s.sqlOf group.length))
    (formats : bind.formats = group.flatten.map (·.format))
    (values : bind.values = group.flatten.map (·.bytes?)) : Carries s texts group front bind := by
  refine ⟨alone, statement, statement ▸ reaches, ?_, formats, values, fun r j row parameter found inside => ?_⟩
  · rw [values, List.length_map, complete.length]
  · have below : j < s.arity := by
      rw [← (complete row (List.mem_of_getElem? found)).1]
      exact (List.getElem?_eq_some_iff.1 inside).1
    have place : group.flatten[r * s.arity + j]? = some parameter := by
      rw [getElem?_flatten (fun other member => (complete other member).1) r below, found]
      exact inside
    rw [formats, values, List.getElem?_map, List.getElem?_map, place]
    exact ⟨rfl, rfl⟩

theorem groupSize_mul_le (s : BatchedStatement) (few : s.arity ≤ maxParameters) :
    s.groupSize * s.arity ≤ maxParameters := by
  have most : min s.maxRows (maxParameters / s.arity) * s.arity ≤ maxParameters :=
    (Nat.mul_le_mul_right _ (Nat.min_le_right _ _)).trans (Nat.div_mul_le_self _ _)
  unfold BatchedStatement.groupSize
  rcases Nat.le_total 1 (min s.maxRows (maxParameters / s.arity)) with several | none
  · rwa [Nat.max_eq_right several]
  · rw [Nat.max_eq_left none, Nat.one_mul]
    exact few

theorem Queued.requests (queued : Queued s t group) (nonempty : group ≠ []) (marks : s.base.later ≠ [])
    (few : s.arity ≤ maxParameters) (room : group.length ≤ s.groupSize) (complete : Complete s group)
    (fits : Binding.Fits ⟨s.reshape group.length, group.flatten⟩) :
    ∃ requests, requests? [(⟨{ t with pending := none }, group.flatten⟩ : Binding BatchedStatement)] =
      some requests := by
  have rows := queued.rows_of_ne_nil nonempty
  have base := queued.base
  have baseName := queued.baseName
  obtain ⟨base', baseName', template, maxRows, rows', types, fields, shapes, pending⟩ := t
  dsimp only at rows base baseName
  subst rows base baseName
  have count : (s.base.grow group.length).placeholderCount = s.arity * group.length :=
    Sql.Fragments.placeholderCount_grow marks (List.length_pos_iff.2 nonempty)
  have most := (Nat.mul_le_mul_right s.arity room).trans (groupSize_mul_le s few)
  refine requests?_isSome ?_ ?_ complete.bound ⟨fits.short, fits.parse, fits.bind⟩
  · exact complete.length.trans ((Nat.mul_comm _ _).trans count.symm)
  · dsimp only
    rwa [complete.length]

theorem Queued.carries (queued : Queued s t group) (nonempty : group ≠ []) (complete : Complete s group)
    (short : ParameterList.Short group.flatten) {texts : Texts} (backed : t.Backed texts)
    {requests : List Request}
    (sent : requests? [(⟨{ t with pending := none }, group.flatten⟩ : Binding BatchedStatement)] =
      some requests) :
    ∃ front bind, requests.map (·.message) = front ++ [.bind bind, .execute "" 0] ∧
      Carries s texts group front bind := by
  obtain ⟨plan, messages, -, planned, unit, rfl, -⟩ := unit_of_requests sent
  have taken : ({ t with pending := none } : BatchedStatement).Backed texts :=
    backed.of_shapes backed.positive rfl rfl rfl
  obtain ⟨front, bind, same, alone, statement, reaches, formats, values⟩ := unit.reaches planned taken
  refine ⟨front, bind, same, ?_⟩
  rw [wireValues_eq complete.bound short] at values
  have rows := queued.rows_of_ne_nil nonempty
  have base := queued.base
  have baseName := queued.baseName
  obtain ⟨base', baseName', template, maxRows, rows', types, fields, shapes, pending⟩ := t
  dsimp only at rows base baseName
  subst rows base baseName
  exact carries_of_values complete alone statement reaches formats (Except.ok.inj values).symm

theorem Queued.flush (queued : Queued s t group) (nonempty : group ≠ []) {texts : Texts}
    (backed : t.Backed texts) {requests : List Request}
    (sent : requests? [(⟨{ t with pending := none }, group.flatten⟩ : Binding BatchedStatement)] =
      some requests)
    {replies : List BackendMessage} {counts : List Nat} {c : Connection} {rest : Bytes}
    (writable : c.writable = true) (answered : Answered (pipelineOf requests) replies counts)
    (delivered : Delivers replies c.incoming rest) :
    ∃ affected u d, counts = [affected] ∧ Batch.flush t c = (.ok (groupOutcomes group.length affected), u, d) ∧
      Sends c [requests] d ∧ d.writable = true ∧ d.incoming = rest ∧ Queued s u [] ∧
      u.Backed (texts.afterAll (pipelineOf requests)) := by
  have taken : ({ t with pending := none } : BatchedStatement).Backed texts :=
    backed.of_shapes backed.positive rfl rfl rfl
  obtain ⟨affected, b, d, bytes, rfl, result, written, sent', writable', read, bare, backed'⟩ :=
    exchangeOne_answered sent taken writable answered delivered
  obtain ⟨base, baseName, maxRows, -⟩ := BatchedStatement.eq_of_bare bare
  obtain ⟨base', baseName', -⟩ := b.statement.reset_same
  obtain ⟨rows', pending', maxRows'⟩ := b.statement.reset_single
  refine ⟨affected, b.statement.reset, d, rfl, ?_, ⟨[bytes], sent', .cons written .nil⟩, writable', read,
    ⟨base'.trans (base.trans queued.base), baseName'.trans (baseName.trans queued.baseName),
      maxRows'.trans (maxRows.trans queued.maxRows), rows', pending'⟩, backed'.reset⟩
  have pending : t.pending = some group.flatten := by rw [queued.pending, if_neg nonempty]
  rw [Batch.flush, pending]
  dsimp only
  rw [result]
  dsimp only [Except.map]
  rw [queued.rows_of_ne_nil nonempty, groupOutcomes]
  rfl

end

end ExtendedQuery
