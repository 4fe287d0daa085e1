import ExtendedQuery.Proofs.Batch.Operations

/-!
# The insert after a batch

Executing a batch can end anywhere: a row is refused, a write fails, the input ends or is no message at any
point, or the server reports an error. Wherever it ends, the insert is for a single row again and keeps
nothing of the rows, and what it records of a number of rows has changed only if the pipeline for as many was
written (`execute_returns`). Nothing is assumed of the transport, which may be another one for every group
(`Transport`).
-/

namespace ExtendedQuery

open Wire

/-! ## Reading -/

namespace Connection

theorem take?_quiet {c d : Connection} {count : Nat} {taken : Bytes} (read : c.take? count = some (taken, d)) :
    c.Quiet d := by
  unfold take? at read
  dsimp only at read
  split at read
  · cases read
    exact ⟨rfl, rfl⟩
  · cases read

theorem readFrame_quiet (c : Connection) : c.Quiet c.readFrame.2 := by
  unfold readFrame
  split
  · exact .refl c
  · rename_i header d read
    have first := take?_quiet read
    dsimp only
    split
    · exact first
    · split
      · exact first
      · rename_i body e read
        exact first.trans (take?_quiet read)

theorem receiveExpected_quiet (expected : Option BackendKind) (c : Connection) :
    c.Quiet (c.receiveExpected expected).2 := by
  have frame (c : Connection) {outcome : Except Error (UInt8 × Bytes)} {d : Connection}
      (read : c.readFrame = (outcome, d)) : c.Quiet d := by
    have quiet := c.readFrame_quiet
    rwa [read] at quiet
  fun_induction receiveExpected expected c with
  | case1 c e d read => exact frame c read
  | case2 c d body read ih => exact (frame c read).trans ih
  | case3 c body d name value _ read _ ih =>
    apply (frame c read).trans
    exact ⟨ih.sent, ih.writable⟩
  | case4 c body d _ _ _ read _ ih => exact (frame c read).trans ih
  | case5 => exact frame _ ‹_›
  | case6 c typeByte body d read => exact frame c read

theorem receiveReply_quiet (c : Connection) : c.Quiet c.receiveReply.2 := by
  have received := c.receiveExpected_quiet none
  unfold receiveReply receive
  generalize c.receiveExpected none = result at received ⊢
  split <;> exact received

theorem quiet_of_receiveReply {c d : Connection} {outcome : Except Error BackendMessage}
    (received : c.receiveReply = (outcome, d)) : c.Quiet d := by
  have quiet := c.receiveReply_quiet
  rwa [received] at quiet

theorem awaitCompletion_quiet (rows : Nat) (c : Connection) : c.Quiet (c.awaitCompletion rows).2 := by
  fun_induction awaitCompletion rows c with
  | case2 rows c d _ _ received ih => exact (quiet_of_receiveReply received).trans ih
  | _ => exact quiet_of_receiveReply ‹_›

theorem awaitReady_quiet (c : Connection) : c.Quiet c.awaitReady.2 := by
  unfold awaitReady
  split <;> exact quiet_of_receiveReply ‹_›

theorem drain_quiet (c : Connection) : c.Quiet c.drain.2 := by
  have received (c : Connection) {outcome : Except Error BackendMessage} {d : Connection}
      (read : c.receive = (outcome, d)) : c.Quiet d := by
    have quiet := c.receiveExpected_quiet none
    change c.Quiet c.receive.2 at quiet
    rwa [read] at quiet
  fun_induction drain c with
  | case3 c d message _ read ih => exact (received c read).trans ih
  | _ => exact received _ ‹_›

theorem resynchronise_quiet {α : Type} (outcome : Except Error α) (c : Connection) :
    c.Quiet (c.resynchronise outcome).2 := by
  have drained := c.drain_quiet
  unfold resynchronise
  split
  · generalize c.drain = result at drained ⊢
    split <;> exact drained
  · exact .refl c

end Connection

section

variable {σ : Type} [Descriptor σ]

theorem Binding.await_quiet (awaited : List Awaited) (b : Binding σ) (c : Connection) :
    c.Quiet (b.await awaited c).2.2 := by
  induction awaited generalizing b c with
  | nil => exact .refl c
  | cons first later ih =>
    have quiet := c.receiveReply_quiet
    unfold await
    generalize c.receiveReply = result at quiet ⊢
    obtain ⟨received, d⟩ := result
    cases received with
    | error e => exact quiet
    | ok reply =>
      dsimp only
      cases b.record first reply with
      | error e => exact quiet
      | ok b' => exact quiet.trans (ih b' d)

theorem awaitUnit_quiet (p : Binding σ × Plan) (c : Connection) : c.Quiet (awaitUnit p c).2.2 := by
  have awaited := p.1.await_quiet p.2.awaited c
  unfold awaitUnit
  generalize p.1.await p.2.awaited c = result at awaited ⊢
  obtain ⟨outcome, b, d⟩ := result
  cases outcome with
  | error e => exact awaited
  | ok => exact awaited.trans (d.awaitCompletion_quiet 0)

theorem awaitAll_quiet (planned : List (Binding σ × Plan)) (c : Connection) :
    c.Quiet (awaitAll planned c).2.2 := by
  induction planned generalizing c with
  | nil => exact c.awaitReady_quiet
  | cons p later ih =>
    have first := awaitUnit_quiet p c
    rw [awaitAll_cons]
    generalize awaitUnit p c = result at first ⊢
    obtain ⟨outcome, b, d⟩ := result
    cases outcome with
    | error e => exact first
    | ok affected => exact first.trans (ih d)

end

/-! ## What is recorded -/

theorem Shapes.at?_update_of_ne {rows r : Nat} (different : r ≠ rows) (change : Shape → Shape) (shapes : Shapes) :
    (shapes.update rows change).at? r = shapes.at? r := by
  induction shapes with
  | nil => rw [update, at?_cons, if_neg different]
  | cons entry later ih =>
    unfold update
    split
    next same => rw [at?_cons, at?_cons, if_neg different, ← same, if_neg different]
    next =>
      split
      · rw [at?_cons, if_neg different]
      · rw [at?_cons, at?_cons, ih]

namespace BatchedStatement

structure Reported (s t : BatchedStatement) : Prop where
  bare : t.bare = s.bare
  others : ∀ rows, rows ≠ s.rows → t.shapes.at? rows = s.shapes.at? rows

variable {s t u : BatchedStatement}

theorem Reported.refl (s : BatchedStatement) : s.Reported s := ⟨rfl, fun _ _ => rfl⟩

theorem Reported.trans (first : s.Reported t) (second : t.Reported u) : s.Reported u := by
  constructor
  · exact second.bare.trans first.bare
  · intro rows different
    have same : t.rows = s.rows := (eq_of_bare first.bare).2.2.2.1
    rw [second.others rows (same ▸ different), first.others rows different]

theorem reported_setPrepared (types : Option (List Oid)) (s : BatchedStatement) :
    s.Reported (s.setPrepared types) := by
  constructor
  · exact bare_setPrepared types s
  · intro rows different
    cases types with
    | none => exact (Shapes.at?_erase _ _ _).trans (if_neg different)
    | some types =>
      unfold setPrepared markParsed
      dsimp only
      split
      · rfl
      · exact Shapes.at?_update_of_ne different _ _

theorem reported_setTypes (types : List Oid) (s : BatchedStatement) : s.Reported (s.setTypes types) := by
  constructor
  · rfl
  · intro rows different
    rw [shapes_setTypes, Shapes.at?_mapShape, if_neg different]

theorem reported_setFields (fields : List Field) (s : BatchedStatement) : s.Reported (s.setFields fields) := by
  constructor
  · exact bare_setFields fields s
  · intro rows different
    unfold setFields markDescribed
    dsimp only
    split
    · rfl
    · exact Shapes.at?_update_of_ne different _ _

end BatchedStatement

theorem Binding.record_reported {b b' : Binding BatchedStatement} {awaited : Awaited} {reply : BackendMessage}
    (recorded : b.record awaited reply = .ok b') : b.statement.Reported b'.statement := by
  unfold record at recorded
  split at recorded
  case h_1 =>
    cases recorded
    exact BatchedStatement.reported_setPrepared none _
  case h_2 types =>
    cases recorded
    exact BatchedStatement.reported_setPrepared (some types) _
  case h_3 count body =>
    cases decoded : decodeOids count body with
    | error e =>
      rw [decoded] at recorded
      cases recorded
    | ok types =>
      rw [decoded] at recorded
      cases recorded
      exact BatchedStatement.reported_setTypes types _
  case h_4 count body =>
    cases decoded : decodeFields count body with
    | error e =>
      rw [decoded] at recorded
      cases recorded
    | ok fields =>
      rw [decoded] at recorded
      cases recorded
      exact BatchedStatement.reported_setFields fields _
  case h_5 =>
    cases recorded
    exact BatchedStatement.reported_setFields [] _
  case h_6 =>
    cases recorded
    exact .refl _
  case h_7 => cases recorded

theorem Binding.await_reported (awaited : List Awaited) (b : Binding BatchedStatement) (c : Connection) :
    b.statement.Reported (b.await awaited c).2.1.statement := by
  induction awaited generalizing b c with
  | nil => exact .refl _
  | cons first later ih =>
    unfold await
    generalize c.receiveReply = result
    obtain ⟨received, d⟩ := result
    cases received with
    | error e => exact .refl _
    | ok reply =>
      dsimp only
      cases recorded : b.record first reply with
      | error e => exact .refl _
      | ok b' => exact (record_reported recorded).trans (ih b' d)

theorem awaitUnit_reported (p : Binding BatchedStatement × Plan) (c : Connection) :
    p.1.statement.Reported (awaitUnit p c).2.1.statement := by
  have awaited := p.1.await_reported p.2.awaited c
  unfold awaitUnit
  generalize p.1.await p.2.awaited c = result at awaited ⊢
  obtain ⟨outcome, b, d⟩ := result
  cases outcome <;> exact awaited

theorem awaitAll_reported (p : Binding BatchedStatement × Plan) (c : Connection) :
    ∃ outcome b d, awaitAll [p] c = (outcome, [b], d) ∧ p.1.statement.Reported b.statement ∧ c.Quiet d := by
  have reported := awaitUnit_reported p c
  have quiet := awaitAll_quiet [p] c
  rw [awaitAll_cons] at quiet ⊢
  generalize awaitUnit p c = result at reported quiet ⊢
  obtain ⟨outcome, b, d⟩ := result
  cases outcome with
  | error e => exact ⟨_, b, d, rfl, reported, quiet⟩
  | ok affected => exact ⟨_, b, _, rfl, reported, quiet⟩

/-! ## What an execution leaves -/

/-- The bytes ask for one execution of the insert with so many rows, and for nothing else. -/
def BatchedStatement.IsPipeline (s : BatchedStatement) (rows : Nat) (bytes : Bytes) : Prop :=
  ∃ messages front bind, FrontendMessage.writeAll? (messages ++ [.sync]) [] = some bytes ∧
    messages = front ++ [.bind bind, .execute "" 0] ∧
    ∀ m ∈ messages, Concerns (s.baseName.ofRows rows).text (s.sqlOf rows) m

/-- The insert stays the same one, and each change of what it records is accounted for by a write. -/
structure BatchedStatement.Accounted (s : BatchedStatement) (c : Connection) (t : BatchedStatement)
    (d : Connection) : Prop where
  base : t.base = s.base
  baseName : t.baseName = s.baseName
  maxRows : t.maxRows = s.maxRows
  writes : ∃ writes, d.sent = c.sent ++ writes ∧
    ∀ rows, t.shapes.at? rows ≠ s.shapes.at? rows → ∃ bytes ∈ writes, s.IsPipeline rows bytes

namespace BatchedStatement

variable {s t u : BatchedStatement} {c d e : Connection}

theorem isPipeline_congr (base : t.base = s.base) (baseName : t.baseName = s.baseName) {rows : Nat}
    {bytes : Bytes} (pipeline : t.IsPipeline rows bytes) : s.IsPipeline rows bytes := by
  unfold IsPipeline sqlOf arity at pipeline ⊢
  rwa [base, baseName] at pipeline

theorem Accounted.silent (base : t.base = s.base) (baseName : t.baseName = s.baseName)
    (maxRows : t.maxRows = s.maxRows) (shapes : t.shapes = s.shapes) (sent : d.sent = c.sent) :
    s.Accounted c t d := by
  refine ⟨base, baseName, maxRows, [], ?_, ?_⟩
  · rw [sent, List.append_nil]
  · intro rows changed
    rw [shapes] at changed
    exact absurd rfl changed

theorem Accounted.refl (s : BatchedStatement) (c : Connection) : s.Accounted c s c :=
  .silent rfl rfl rfl rfl rfl

theorem Accounted.trans (first : s.Accounted c t d) (second : t.Accounted d u e) : s.Accounted c u e := by
  obtain ⟨earlier, sent, accounted⟩ := first.writes
  obtain ⟨later, sent', accounted'⟩ := second.writes
  refine ⟨second.base.trans first.base, second.baseName.trans first.baseName,
    second.maxRows.trans first.maxRows, earlier ++ later, ?_, ?_⟩
  · rw [sent', sent, List.append_assoc]
  · intro rows changed
    by_cases same : t.shapes.at? rows = s.shapes.at? rows
    · rw [← same] at changed
      obtain ⟨bytes, inside, pipeline⟩ := accounted' rows changed
      exact ⟨bytes, List.mem_append_right _ inside, isPipeline_congr first.base first.baseName pipeline⟩
    · obtain ⟨bytes, inside, pipeline⟩ := accounted rows same
      exact ⟨bytes, List.mem_append_left _ inside, pipeline⟩

theorem Accounted.reset (accounted : s.Accounted c t d) : s.Accounted c t.reset d := by
  obtain ⟨base, baseName, shapes⟩ := t.reset_same
  obtain ⟨-, -, maxRows⟩ := t.reset_single
  exact accounted.trans (.silent base baseName maxRows shapes rfl)

end BatchedStatement

theorem IsUnitOf.isPipeline {s : BatchedStatement} {list : ParameterList} {plan : Plan}
    {messages : List FrontendMessage} (unit : IsUnitOf ⟨s, list⟩ plan messages) {bytes : Bytes}
    (written : FrontendMessage.writeAll? (messages ++ [.sync]) [] = some bytes) : s.IsPipeline s.rows bytes := by
  have concerns := unit.concerns
  cases unit with
  | @mk parse bind => exact ⟨_, _, bind, written, rfl, concerns⟩

theorem exchangeOne_accounted (s : BatchedStatement) (list : ParameterList) (c : Connection) :
    s.Accounted c (exchangeOne s list c).2.1.statement (exchangeOne s list c).2.2 := by
  unfold exchangeOne
  cases sent : requests? [(⟨s, list⟩ : Binding BatchedStatement)] with
  | none =>
    obtain ⟨e, nothing⟩ := exchange_of_no_requests sent c
    rw [nothing]
    exact .refl s c
  | some requests =>
    cases writable : c.writable with
    | false =>
      obtain ⟨e, nothing⟩ := exchange_of_unwritable writable [(⟨s, list⟩ : Binding BatchedStatement)]
      rw [nothing]
      exact .refl s c
    | true =>
      obtain ⟨plan, messages, bytes, -, unit, rfl, written, exchanged⟩ := unit_of_requests sent
      obtain ⟨outcome, b, d, result, reported, quiet⟩ :=
        awaitAll_reported (⟨s, list⟩, plan) { c with sent := c.sent ++ [bytes] }
      obtain ⟨base, baseName, maxRows, -⟩ := BatchedStatement.eq_of_bare reported.bare
      rw [exchanged c writable, result]
      refine ⟨base, baseName, maxRows, [bytes], (d.resynchronise_quiet outcome).sent.trans quiet.sent, ?_⟩
      intro rows changed
      have own : rows = s.rows := by
        by_contra different
        exact changed (reported.others rows different)
      subst own
      exact ⟨bytes, List.mem_singleton_self _, unit.isPipeline written⟩

/-! ## Rows that are merged -/

namespace Batch

theorem flush_accounted (s : BatchedStatement) (c : Connection) :
    s.Accounted c (flush s c).2.1 (flush s c).2.2 := by
  unfold flush
  cases s.pending with
  | none => exact (BatchedStatement.Accounted.refl s c).reset
  | some queued =>
    have taken : s.Accounted c { s with pending := none } c := .silent rfl rfl rfl rfl rfl
    exact (taken.trans (exchangeOne_accounted _ queued c)).reset

theorem accounted_addRow {s t : BatchedStatement} {row : ParameterList} (added : s.addRow row = .ok t)
    (c : Connection) : s.Accounted c t c := by
  have done : s.attempt (.addRow row) = .ok t := added
  have changes := BatchedStatement.attempt_changes done
  exact .silent changes.base changes.baseName changes.maxRows (BatchedStatement.shapes_addRow added) rfl

theorem mergeRow_accounted (s : BatchedStatement) (row : Parameters) (c : Connection) :
    s.Accounted c (mergeRow s row c).2.1 (mergeRow s row c).2.2 := by
  unfold mergeRow
  cases row with
  | composite lists => exact .refl s c
  | single list =>
    dsimp only
    cases added : s.addRow list with
    | ok t => exact accounted_addRow added c
    | error e =>
      cases e with
      | full rows =>
        have flushed := flush_accounted s c
        generalize flush s c = result at flushed ⊢
        obtain ⟨outcome, t, d⟩ := result
        cases outcome with
        | error e => exact flushed
        | ok outcomes =>
          dsimp only
          cases again : t.addRow list with
          | error e => exact flushed
          | ok u => exact flushed.trans (accounted_addRow again d)
      | arityMismatch expected found => exact .refl s c
      | notGrowable => exact .refl s c

end Batch

/-! ## Transports -/

structure Transport where
  incoming : Bytes
  writable : Bool
  deriving DecidableEq, Repr

namespace Transport

def steady (c : Connection) : Transport := ⟨c.incoming, c.writable⟩

def resume (transport : Connection → Transport) (c : Connection) : Connection :=
  { c with incoming := (transport c).incoming, writable := (transport c).writable }

theorem resume_steady (c : Connection) : resume steady c = c := rfl

end Transport

namespace Batch

open Transport

/-- Merges rows as `mergeRows` does, on a transport that may have become another one before each row. -/
def mergeRowsOn (transport : Connection → Transport) (done : List RowOutcome) :
    (s : BatchedStatement) → List Parameters → Connection →
      Except Error (List RowOutcome) × BatchedStatement × Connection
  | s, [], c =>
    let (outcome, s, c) := flush s (resume transport c)
    (outcome.map (done ++ ·), s, c)
  | s, row :: later, c =>
    match mergeRow s row (resume transport c) with
    | (.error e, s, c) => (.error e, s, c)
    | (.ok outcomes, s, c) => mergeRowsOn transport (done ++ outcomes) s later c

def executeOn (transport : Connection → Transport) (s : BatchedStatement) (rows : List Parameters)
    (c : Connection) : Except Error (List RowOutcome) × Batch × Connection :=
  let (outcome, s, c) := mergeRowsOn transport [] s rows c
  (outcome, new (.batched s.reset), c)

theorem mergeRowsOn_steady (done : List RowOutcome) (s : BatchedStatement) (rows : List Parameters)
    (c : Connection) : mergeRowsOn steady done s rows c = mergeRows done s rows c := by
  induction rows generalizing done s c with
  | nil => rfl
  | cons row later ih =>
    unfold mergeRowsOn mergeRows
    rw [resume_steady]
    obtain ⟨outcome, t, d⟩ := mergeRow s row c
    cases outcome with
    | error e => rfl
    | ok outcomes => exact ih (done ++ outcomes) t d

theorem executeOn_steady (s : BatchedStatement) (rows : List Parameters) (c : Connection) :
    executeOn steady s rows c = execute ⟨.batched s, rows⟩ c := by
  unfold executeOn execute
  rw [mergeRowsOn_steady]

theorem resume_accounted (transport : Connection → Transport) (s : BatchedStatement) (c : Connection) :
    s.Accounted c s (resume transport c) := .silent rfl rfl rfl rfl rfl

theorem mergeRowsOn_accounted (transport : Connection → Transport) (done : List RowOutcome)
    (s : BatchedStatement) (rows : List Parameters) (c : Connection) :
    s.Accounted c (mergeRowsOn transport done s rows c).2.1 (mergeRowsOn transport done s rows c).2.2 := by
  induction rows generalizing done s c with
  | nil => exact (resume_accounted transport s c).trans (flush_accounted s (resume transport c))
  | cons row later ih =>
    have merged := (resume_accounted transport s c).trans (mergeRow_accounted s row (resume transport c))
    unfold mergeRowsOn
    generalize mergeRow s row (resume transport c) = result at merged ⊢
    obtain ⟨outcome, t, d⟩ := result
    cases outcome with
    | error e => exact merged
    | ok outcomes => exact merged.trans (ih (done ++ outcomes) t d)

structure Returned (s t : BatchedStatement) : Prop where
  rows : t.rows = 1
  pending : t.pending = none
  fragments : t.fragments = s.base
  sql : t.sql = s.base.native
  name : t.name = s.baseName

theorem returned_reset {s t : BatchedStatement} (base : t.base = s.base) (baseName : t.baseName = s.baseName) :
    Returned s t.reset := by
  obtain ⟨base', baseName', -⟩ := t.reset_same
  obtain ⟨rows, pending, -⟩ := t.reset_single
  constructor
  case rows => exact rows
  case pending => exact pending
  case fragments =>
    rw [BatchedStatement.fragments, rows, Sql.Fragments.grow_one, base', base]
  case sql =>
    rw [BatchedStatement.sql, rows, base', base]
    exact List.append_nil _
  case name =>
    rw [BatchedStatement.name, rows, StatementName.ofRows_one, baseName', baseName]

/-- Whatever the transport does at any point of a batch, its rows are gone afterwards, and the insert is for a
single row as it was made. Records of a number of rows that have changed are accounted for by a pipeline for
as many that was written. A transport that stays as it is makes this the execution of the batch. -/
theorem execute_returns (s : BatchedStatement) (rows : List Parameters) (c : Connection) :
    executeOn steady s rows c = execute ⟨.batched s, rows⟩ c ∧
      ∀ transport : Connection → Transport, ∃ outcome t d,
        executeOn transport s rows c = (outcome, ⟨.batched t, []⟩, d) ∧ Returned s t ∧ s.Accounted c t d := by
  constructor
  · exact executeOn_steady s rows c
  · intro transport
    have accounted := mergeRowsOn_accounted transport [] s rows c
    exact ⟨_, _, _, rfl, returned_reset accounted.base accounted.baseName, accounted.reset⟩

end Batch

end ExtendedQuery
