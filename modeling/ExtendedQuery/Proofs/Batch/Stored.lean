import ExtendedQuery.Proofs.Batch.Template
import ExtendedQuery.Statement.Stored

/-!
# What an insert keeps of its shape

The text, the fragments and the name that an insert keeps are the ones of its number of rows (`Sound`), and its
operations do to it what they do to an insert that keeps none of them (`attempt_agrees`). So whatever was done
before, its texts, its name and its rows belong together, and so do its rows and its parameters as long as every row
came with its own parameters. Main statement: `operations_coherent`.
-/

namespace ExtendedQuery.StoredInsert

open BatchedStatement (Operation History GrownFrom)

def attempt (s : StoredInsert) : Operation → Except GrowthError Unit × StoredInsert
  | .queueRow => s.queueRow
  | .addRow row => s.addRow row
  | .reset => (.ok (), s.reset)
  | .setTypes types => (.ok (), s.setTypes types)
  | .setFields fields => (.ok (), s.setFields fields)
  | .setPrepared types => (.ok (), s.setPrepared types)
  | .markParsed rows types => (.ok (), s.markParsed rows types)
  | .markDescribed rows => (.ok (), s.markDescribed rows)
  | .close => (.ok (), s.close.1)

/-- An insert with the rows that were added since it was reset, unless one was queued without its parameters. -/
structure Run where
  insert : StoredInsert
  added : Option (List ParameterList)

namespace Run

def perform (run : Run) (operation : Operation) : Run :=
  match run.insert.attempt operation with
  | (.ok (), s) => ⟨s, operation.track run.added⟩
  | (.error _, s) => ⟨s, run.added⟩

def performAll (run : Run) (operations : List Operation) : Run := operations.foldl perform run

end Run

def plain (s : StoredInsert) : BatchedStatement :=
  ⟨s.original, s.baseName, s.template, s.maxRows, s.rows, s.statement.types, s.statement.fields, s.shapes, s.pending⟩

structure Sound (s : StoredInsert) : Prop where
  arity : s.arity = s.original.placeholderCount
  baseText : s.baseText = s.original.native
  fragments : s.statement.fragments = s.original.grow s.rows
  text : s.statement.text = Sql.growText s.baseText s.arity s.rows
  name : s.statement.name = s.baseName.ofRows s.rows
  resolved : s.resolved = true → Oid.unspecified ∉ s.template

/-- The operation does to the insert what it does to the plain one, and it fails as that one does. -/
structure Agrees (s : StoredInsert) (r : Except GrowthError Unit × StoredInsert)
    (expected : Except GrowthError BatchedStatement) : Prop where
  result : r.1 = expected.map fun _ => ()
  plain : r.2.plain = expected.toOption.getD s.plain
  sound : r.2.Sound

variable {s : StoredInsert}

theorem Sound.agrees_ok {t : StoredInsert} (sound : t.Sound) : Agrees s (.ok (), t) (.ok t.plain) := ⟨rfl, rfl, sound⟩

theorem Sound.agrees_error (sound : s.Sound) (e : GrowthError) : Agrees s (.error e, s) (.error e) := ⟨rfl, rfl, sound⟩

theorem ofStatement_sound (statement : Statement) (maxRows : Nat) : (ofStatement statement.stored maxRows).Sound := by
  constructor
  · rfl
  · rfl
  · exact (Sql.Fragments.grow_one _).symm
  · exact (List.append_nil _).symm
  · exact (StatementName.ofRows_one _).symm
  · nofun

theorem Sound.arity_plain (sound : s.Sound) : s.plain.arity = s.arity := sound.arity.symm

theorem Sound.applyShape (sound : s.Sound) (rows : Nat) : (s.applyShape rows).Sound := by
  refine ⟨sound.arity, sound.baseText, ?_, ?_, rfl, sound.resolved⟩
  · by_cases single : rows = 1
    · subst single
      exact (Sql.Fragments.grow_one _).symm
    · simp [StoredInsert.applyShape, StoredStatement.replaceShape, single]
  · by_cases single : rows = 1
    · subst single
      exact (List.append_nil _).symm
    · simp [StoredInsert.applyShape, StoredStatement.replaceShape, single]

theorem Sound.withPending (sound : s.Sound) (pending : Option ParameterList) : Sound { s with pending := pending } :=
  ⟨sound.arity, sound.baseText, sound.fragments, sound.text, sound.name, sound.resolved⟩

theorem Sound.queueRow_of_full (sound : s.Sound) (full : s.plain.IsFull s.maxRows) :
    s.queueRow = (.error (.full s.rows), s) := by
  rw [BatchedStatement.IsFull, sound.arity_plain] at full
  exact if_pos full

theorem Sound.queueRow_of_room (sound : s.Sound) (room : ¬ s.plain.IsFull s.maxRows) :
    s.queueRow = (.ok (), s.applyShape (s.rows + 1)) := by
  rw [BatchedStatement.IsFull, sound.arity_plain] at room
  exact if_neg room

theorem Sound.queueRow (sound : s.Sound) : Agrees s s.queueRow s.plain.queueRow := by
  by_cases full : s.plain.IsFull s.maxRows
  · rw [sound.queueRow_of_full full, BatchedStatement.queueRow_of_full full]
    exact sound.agrees_error _
  · rw [sound.queueRow_of_room full, BatchedStatement.queueRow_of_room full]
    exact (sound.applyShape _).agrees_ok

theorem addRow_later {row : ParameterList} (length : row.length = s.arity) {queued : ParameterList}
    (pending : s.pending = some queued) : s.addRow row =
      match s.queueRow with
      | (.error e, s) => (.error e, s)
      | (.ok (), s) => (.ok (), { s with pending := s.pending.map (· ++ row) }) := by
  rw [StoredInsert.addRow, if_neg (not_not.2 length), pending]
  rfl

theorem Sound.addRow (sound : s.Sound) (row : ParameterList) : Agrees s (s.addRow row) (s.plain.addRow row) := by
  by_cases length : row.length = s.arity
  · have length' : row.length = s.plain.arity := length.trans sound.arity
    cases pending : s.pending with
    | none =>
      rw [StoredInsert.addRow, if_neg (not_not.2 length), pending, BatchedStatement.addRow_first length' pending]
      exact (sound.withPending _).agrees_ok
    | some queued =>
      rw [addRow_later length pending, BatchedStatement.addRow_later length' pending]
      by_cases full : s.plain.IsFull s.maxRows
      · rw [sound.queueRow_of_full full, BatchedStatement.queueRow_of_full full]
        exact sound.agrees_error _
      · rw [sound.queueRow_of_room full, BatchedStatement.queueRow_of_room full]
        dsimp only [StoredInsert.applyShape]
        rw [pending]
        exact ((sound.applyShape _).withPending _).agrees_ok
  · have mismatch : row.length ≠ s.plain.arity := sound.arity_plain ▸ length
    rw [StoredInsert.addRow, if_pos length, BatchedStatement.addRow_of_mismatch mismatch, sound.arity_plain]
    exact sound.agrees_error _

theorem plain_reset (s : StoredInsert) : s.reset.plain = s.plain.reset := by
  by_cases single : s.rows = 1
  · have kept : s.reset = { s with pending := none } := if_neg (not_not.2 single)
    have same : s.plain.reset = { s.plain with pending := none } := if_pos single
    rw [kept, same]
    rfl
  · have shrunk : s.reset = StoredInsert.applyShape 1 { s with pending := none } := if_pos single
    rw [shrunk, BatchedStatement.reset_of_several (s := s.plain) single]
    rfl

theorem Sound.reset (sound : s.Sound) : s.reset.Sound := by
  unfold StoredInsert.reset
  dsimp only
  split
  · exact (sound.withPending none).applyShape 1
  · exact sound.withPending none

theorem Sound.withShapes (sound : s.Sound) (shapes : Shapes) : Sound { s with shapes := shapes } :=
  ⟨sound.arity, sound.baseText, sound.fragments, sound.text, sound.name, sound.resolved⟩

theorem plain_record (shapes : Shapes) (s : StoredInsert) :
    (if s.baseName.isUnnamed then s else { s with shapes := shapes }).plain =
      if s.plain.baseName.isUnnamed then s.plain else { s.plain with shapes := shapes } :=
  apply_ite plain _ _ _

theorem Sound.record (sound : s.Sound) (shapes : Shapes) :
    Sound (if s.baseName.isUnnamed then s else { s with shapes := shapes }) := by
  split
  · exact sound
  · exact sound.withShapes shapes

/-- What is left out for a template that is resolved would not change it. -/
theorem Sound.template_foldTemplate (sound : s.Sound) (types : List Oid) :
    (s.foldTemplate types).template = BatchedStatement.foldTemplate s.arity s.template types := by
  unfold StoredInsert.foldTemplate
  split
  · rename_i known
    rcases known with resolved | none
    · exact (BatchedStatement.foldTemplate_of_specified _ (sound.resolved resolved) types).symm
    · rw [none, BatchedStatement.foldTemplate_zero]
  · rfl

theorem foldTemplate_same (types : List Oid) (s : StoredInsert) : s.foldTemplate types =
    { s with template := (s.foldTemplate types).template, resolved := (s.foldTemplate types).resolved } := by
  unfold StoredInsert.foldTemplate
  split <;> rfl

theorem Sound.resolved_foldTemplate (sound : s.Sound) (types : List Oid)
    (resolved : (s.foldTemplate types).resolved = true) : Oid.unspecified ∉ (s.foldTemplate types).template := by
  unfold StoredInsert.foldTemplate at resolved ⊢
  split at resolved
  · rename_i known
    rw [if_pos known]
    exact sound.resolved resolved
  · rename_i unknown
    rw [if_neg unknown]
    have each : ∀ oid ∈ BatchedStatement.foldTemplate s.arity s.template types, oid ≠ Oid.unspecified := by
      simpa using resolved
    exact fun member => each _ member rfl

theorem Sound.foldTemplate (sound : s.Sound) (types : List Oid) : (s.foldTemplate types).Sound := by
  have known := sound.resolved_foldTemplate types
  rw [foldTemplate_same] at known ⊢
  exact ⟨sound.arity, sound.baseText, sound.fragments, sound.text, sound.name, known⟩

theorem Sound.plain_setTypes (sound : s.Sound) (types : List Oid) :
    (s.setTypes types).plain = s.plain.setTypes types := by
  have template := (sound.withShapes (s.shapes.report s.rows types)).template_foldTemplate types
  rw [StoredInsert.setTypes, foldTemplate_same]
  dsimp only [plain]
  rw [template, BatchedStatement.setTypes, ← sound.arity_plain]
  rfl

theorem Sound.setTypes (sound : s.Sound) (types : List Oid) : (s.setTypes types).Sound := by
  obtain ⟨arity, baseText, fragments, text, name, resolved⟩ :=
    (sound.withShapes (s.shapes.report s.rows types)).foldTemplate types
  exact ⟨arity, baseText, fragments, text, name, resolved⟩

theorem Sound.setFields (sound : s.Sound) (fields : List Field) : (s.setFields fields).Sound := by
  apply Sound.record
  exact ⟨sound.arity, sound.baseText, sound.fragments, sound.text, sound.name, sound.resolved⟩

theorem attempt_agrees (sound : s.Sound) (operation : Operation) :
    Agrees s (s.attempt operation) (s.plain.attempt operation) := by
  cases operation with
  | queueRow => exact sound.queueRow
  | addRow row => exact sound.addRow row
  | reset => exact ⟨rfl, s.plain_reset, sound.reset⟩
  | setTypes types => exact ⟨rfl, sound.plain_setTypes types, sound.setTypes types⟩
  | setFields fields => exact ⟨rfl, plain_record _ _, sound.setFields fields⟩
  | setPrepared types =>
    cases types with
    | none => exact (sound.withShapes _).agrees_ok
    | some types => exact ⟨rfl, plain_record _ _, sound.record _⟩
  | markParsed rows types => exact ⟨rfl, plain_record _ _, sound.record _⟩
  | markDescribed rows => exact ⟨rfl, plain_record _ _, sound.record _⟩
  | close => exact (sound.withShapes _).agrees_ok

/-- An operation that fails has changed nothing, also one that has begun to grow the insert. -/
theorem attempt_error {operation : Operation} {e : GrowthError} (failed : (s.attempt operation).1 = .error e) :
    (s.attempt operation).2 = s := by
  have grows : ∀ e, s.queueRow.1 = .error e → s.queueRow.2 = s := by
    intro e failed
    unfold StoredInsert.queueRow at failed ⊢
    dsimp only at failed ⊢
    split at failed
    · rename_i full
      rw [if_pos full]
    · cases failed
  cases operation with
  | queueRow => exact grows e failed
  | addRow row =>
    change (s.addRow row).1 = .error e at failed
    change (s.addRow row).2 = s
    by_cases length : row.length = s.arity
    · cases pending : s.pending with
      | none =>
        rw [StoredInsert.addRow, if_neg (not_not.2 length), pending] at failed
        cases failed
      | some queued =>
        rw [addRow_later length pending] at failed ⊢
        generalize s.queueRow = grown at grows failed ⊢
        obtain ⟨outcome, t⟩ := grown
        cases outcome with
        | ok => cases failed
        | error e' => exact grows e' rfl
    · rw [StoredInsert.addRow, if_pos length]
  | _ => cases failed

namespace Run

def plain (run : Run) : History := ⟨run.insert.plain, run.added⟩

theorem perform_agrees {run : Run} (sound : run.insert.Sound) (operation : Operation) :
    (run.perform operation).insert.Sound ∧ (run.perform operation).plain = run.plain.perform operation := by
  have agrees := attempt_agrees sound operation
  unfold perform History.perform
  generalize run.insert.attempt operation = r at agrees ⊢
  obtain ⟨outcome, t⟩ := r
  obtain ⟨result, same, sound'⟩ := agrees
  change outcome = (run.plain.statement.attempt operation).map _ at result
  change t.plain = (run.plain.statement.attempt operation).toOption.getD _ at same
  cases done : run.plain.statement.attempt operation with
  | error e =>
    rw [done] at result same
    cases result
    exact ⟨sound', congrArg (History.mk · run.added) same⟩
  | ok u =>
    rw [done] at result same
    cases result
    exact ⟨sound', congrArg (History.mk · (operation.track run.added)) same⟩

theorem performAll_agrees {run : Run} (sound : run.insert.Sound) (operations : List Operation) :
    (run.performAll operations).insert.Sound ∧ (run.performAll operations).plain = run.plain.performAll operations := by
  induction operations generalizing run with
  | nil => exact ⟨sound, rfl⟩
  | cons operation later ih =>
    obtain ⟨sound', same⟩ := perform_agrees sound operation
    have next := ih sound'
    rw [same] at next
    exact next

end Run

structure Coherent (statement : Statement) (maxRows : Nat) (s : StoredInsert) : Prop where
  arity : s.arity = statement.fragments.placeholderCount
  positive : 1 ≤ s.rows
  most : s.rows ≤ max 1 maxRows
  few : s.rows = 1 ∨ s.rows * s.arity ≤ maxParameters
  marks : s.statement.fragments.placeholderCount = s.rows * s.arity
  native : s.statement.text = s.statement.fragments.native
  grown : s.statement.text = Sql.growText statement.sql s.arity s.rows
  single : s.rows = 1 → s.statement.name = statement.name
  several : statement.name.isUnnamed = false → 1 < s.rows →
    s.statement.name.text = statement.name.text ++ "_" ++ toString s.rows
  unnamed : statement.name.isUnnamed = true → s.statement.name = .unnamed

/-- The insert is the plain one beside what it keeps, and what it keeps is what the plain one would show. -/
structure Shows (s : StoredInsert) (t : BatchedStatement) : Prop where
  plain : s.plain = t
  text : s.statement.text = t.sql
  fragments : s.statement.fragments = t.fragments
  name : s.statement.name = t.name

theorem Sound.shows (sound : s.Sound) : s.Shows s.plain := by
  constructor
  · rfl
  · rw [sound.text, sound.baseText, sound.arity]
    rfl
  · exact sound.fragments
  · exact sound.name

theorem Sound.coherent (sound : s.Sound) {statement : Statement} (growable : statement.fragments.isGrowable = true)
    {maxRows : Nat} (grown : GrownFrom (.ofStatement statement maxRows) s.plain) : Coherent statement maxRows s := by
  have base : s.original = statement.fragments := grown.base
  have baseName : s.baseName = statement.name := grown.baseName
  have positive : 0 < s.rows := grown.positive
  have marks := Sql.Fragments.later_ne_nil_of_isGrowable growable
  have arity : s.arity = statement.fragments.placeholderCount := by rw [sound.arity, base]
  have most : s.rows ≤ max 1 (max maxRows 1) := grown.most
  have text : s.statement.text = Sql.growText statement.sql s.arity s.rows := by
    rw [sound.text, sound.baseText, base]
    rfl
  have name : s.statement.name = statement.name.ofRows s.rows := by rw [sound.name, baseName]
  constructor
  case arity => exact arity
  case positive => exact positive
  case most => omega
  case few =>
    have few := grown.few
    rw [sound.arity_plain] at few
    exact few
  case marks =>
    rw [sound.fragments, base, Sql.Fragments.placeholderCount_grow marks positive, arity, Nat.mul_comm]
  case native =>
    rw [sound.fragments, base, text, arity, Sql.Fragments.native_grow marks positive]
    rfl
  case grown => exact text
  case single =>
    intro single
    rw [name, single, StatementName.ofRows_one]
  case several =>
    intro named several
    rw [name]
    apply String.toList_injective
    rw [StatementName.text_ofRows named several]
    simp [Decimal.digits]
  case unnamed =>
    intro unnamed
    apply StatementName.eq_of_text
    rw [name]
    apply (StatementName.isUnnamed_iff _).1
    simp [unnamed]

def IsFull (limit : Nat) (s : StoredInsert) : Prop :=
  maxParameters < (s.rows + 1) * s.arity ∨ limit < s.rows + 1

theorem Sound.isFull_plain (sound : s.Sound) (limit : Nat) : s.plain.IsFull limit ↔ s.IsFull limit := by
  rw [BatchedStatement.IsFull, sound.arity_plain]
  rfl

theorem map_unit_eq_error {α ε : Type} {result : Except ε α} {e : ε} :
    (result.map fun _ => ()) = .error e ↔ result = .error e := by
  cases result <;> simp [Except.map]

/-- Whatever operations a growable insert went through, the texts and the name that it keeps belong to its number of
rows, and so do its parameters if no row was queued without them. Rows are refused for their length and for want of
room alone, and an operation that fails changes nothing. -/
theorem operations_coherent {statement : Statement} (growable : statement.fragments.isGrowable = true)
    (maxRows : Nat) (operations : List Operation) :
    ∃ start, new statement.stored maxRows = .ok start ∧
      ∀ s added, Run.performAll ⟨start, some []⟩ operations = ⟨s, added⟩ →
        Coherent statement maxRows s ∧
        (∀ rows, added = some rows →
          s.pending = (if rows = [] then none else some rows.flatten) ∧ s.rows = max 1 rows.length) ∧
        (∀ e, s.queueRow.1 = .error e ↔ s.IsFull (max 1 maxRows) ∧ e = .full s.rows) ∧
        (∀ row e, (s.addRow row).1 = .error e ↔
          row.length ≠ s.arity ∧ e = .arityMismatch s.arity row.length ∨
            row.length = s.arity ∧ s.pending ≠ none ∧ s.IsFull (max 1 maxRows) ∧ e = .full s.rows) ∧
        (∀ operation e, (s.attempt operation).1 = .error e → (s.attempt operation).2 = s) ∧
        s.Shows (History.performAll ⟨.ofStatement statement maxRows, some []⟩ operations).statement := by
  refine ⟨ofStatement statement.stored maxRows, if_pos growable, ?_⟩
  intro s added performed
  have fresh : (⟨ofStatement statement.stored maxRows, some []⟩ : Run).insert.Sound := ofStatement_sound statement maxRows
  have run := Run.performAll_agrees fresh operations
  rw [performed] at run
  obtain ⟨sound, same⟩ := run
  change s.Sound at sound
  have history := (BatchedStatement.sound_ofStatement statement maxRows).performAll operations
  change (⟨s.plain, added⟩ : History) = History.performAll ⟨.ofStatement statement maxRows, some []⟩ operations at same
  rw [← same] at history ⊢
  have limit : s.maxRows = max 1 maxRows := history.grown.maxRows.trans (Nat.max_comm _ _)
  refine ⟨sound.coherent growable history.grown, ?_, ?_, ?_, ?_, sound.shows⟩
  · intro rows accepted
    have queued := history.queued rows accepted
    exact ⟨queued.pending, queued.rows⟩
  · intro e
    rw [sound.queueRow.result, map_unit_eq_error, BatchedStatement.queueRow_eq_error_iff, sound.isFull_plain, ← limit]
    rfl
  · intro row e
    rw [(sound.addRow row).result, map_unit_eq_error, BatchedStatement.addRow_eq_error_iff, sound.isFull_plain,
      sound.arity_plain, ← limit]
    rfl
  · exact fun operation e failed => attempt_error failed

theorem operations_coherent_pair :
    BatchedStatement.pairStatement.fragments.isGrowable = true ∧
      ∃ s, Coherent BatchedStatement.pairStatement 2 s ∧ s.rows = 2 ∧ s.pending = some (.ofCount 4) ∧
        (s.attempt .queueRow).1 = .error (.full 2) ∧ (s.attempt .queueRow).2 = s := by
  have growable : BatchedStatement.pairStatement.fragments.isGrowable = true := by decide
  have made : new BatchedStatement.pairStatement.stored 2 = .ok (ofStatement BatchedStatement.pairStatement.stored 2) :=
    if_pos growable
  obtain ⟨start, made', holds⟩ := operations_coherent growable 2
    [.addRow (.ofCount 2), .addRow (.ofCount 1), .addRow (.ofCount 2), .queueRow]
  cases made.symm.trans made'
  obtain ⟨coherent, queued, refused, -, unchanged, -⟩ := holds _ _ rfl
  obtain ⟨pending, rows⟩ := queued [.ofCount 2, .ofCount 2] rfl
  have full := (refused (.full 2)).2 ⟨.inr (by decide), rfl⟩
  exact ⟨growable, _, coherent, rows, pending, full, unchanged _ _ full⟩

end ExtendedQuery.StoredInsert
