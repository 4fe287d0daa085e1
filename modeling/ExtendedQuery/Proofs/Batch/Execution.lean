import ExtendedQuery.Proofs.Batch.Groups

/-!
# Batches that are executed

A batch of rows for an insert is executed group by group. With a server that acknowledges everything each
group is merged into one statement, all parameters are sent in the order of the rows, and every row has its
outcome (`Batch.execute_merges`).
-/

namespace ExtendedQuery

open Wire Connection

structure Executable (s : BatchedStatement) (rows : List ParameterList) : Prop where
  marks : s.base.later ≠ []
  few : s.arity ≤ maxParameters
  complete : Complete s rows
  fits : ∀ group ∈ groupsOf s.groupSize rows, Binding.Fits ⟨s.reshape group.length, group.flatten⟩

structure Executed (s : BatchedStatement) (texts : Texts) (groups : List (List ParameterList))
    (pipelines : List (List Request)) (c : Connection) (counts : List (List Nat)) (rest : Bytes)
    (outcomes : List RowOutcome) (u : BatchedStatement) (d : Connection) : Prop where
  merges : Merges s texts groups pipelines counts outcomes
  sent : Sends c pipelines d
  writable : d.writable = true
  read : d.incoming = rest
  queued : Queued s u []
  backed : u.Backed (texts.afterAll (pipelines.flatMap pipelineOf))

section

variable {s t : BatchedStatement} {group : List ParameterList} {texts : Texts} {c : Connection}

theorem Executed.nil (queued : Queued s t []) (backed : t.Backed texts) (writable : c.writable = true) :
    Executed s texts [] [] c [] c.incoming [] t c :=
  ⟨.nil, ⟨[], (List.append_nil _).symm, .nil⟩, writable, rfl, queued, backed⟩

theorem Executed.cons {groups : List (List ParameterList)} {requests : List Request}
    {pipelines : List (List Request)} {front : List FrontendMessage} {bind : Bind} {affected : Nat}
    {counts : List (List Nat)} {rest : Bytes} {outcomes : List RowOutcome} {u : BatchedStatement}
    {d e : Connection} (same : requests.map (·.message) = front ++ [.bind bind, .execute "" 0])
    (carries : Carries s texts group front bind) (sent : Sends c [requests] d)
    (later : Executed s (texts.afterAll (pipelineOf requests)) groups pipelines d counts rest outcomes u e) :
    Executed s texts (group :: groups) (requests :: pipelines) c ([affected] :: counts) rest
      (groupOutcomes group.length affected ++ outcomes) u e := by
  refine ⟨.cons same carries later.merges, sent.append later.sent, later.writable, later.read, later.queued, ?_⟩
  rw [List.flatMap_cons, Texts.afterAll_append]
  exact later.backed

theorem Queued.executed (queued : Queued s t group) (nonempty : group ≠ []) (marks : s.base.later ≠ [])
    (few : s.arity ≤ maxParameters) (room : group.length ≤ s.groupSize) (complete : Complete s group)
    (fits : Binding.Fits ⟨s.reshape group.length, group.flatten⟩) (backed : t.Backed texts)
    (writable : c.writable = true) :
    ∃ requests, Batch.flushPipelines t = [requests] ∧
      ∀ {pipelines counts rest}, Answers (requests :: pipelines) c.incoming counts rest →
        ∃ affected others u d, counts = [affected] :: others ∧ Answers pipelines d.incoming others rest ∧
          Batch.flush t c = (.ok (groupOutcomes group.length affected), u, d) ∧ d.writable = true ∧
          Queued s u [] ∧ u.Backed (texts.afterAll (pipelineOf requests)) ∧
          ∀ {groups outcomes v e},
            Executed s (texts.afterAll (pipelineOf requests)) groups pipelines d others rest outcomes v e →
            Executed s texts (group :: groups) (requests :: pipelines) c counts rest
              (groupOutcomes group.length affected ++ outcomes) v e := by
  obtain ⟨requests, sent⟩ := queued.requests nonempty marks few room complete fits
  obtain ⟨front, bind, same, carries⟩ := queued.carries nonempty complete fits.short backed sent
  refine ⟨requests, ?_, fun answers => ?_⟩
  · have pending : t.pending = some group.flatten := by rw [queued.pending, if_neg nonempty]
    rw [Batch.flushPipelines, pending]
    dsimp only [pipelines]
    rw [sent]
    rfl
  · cases answers with
    | cons answered delivered answers =>
      obtain ⟨affected, u, d, rfl, result, sent', writable', rfl, queued', backed'⟩ :=
        queued.flush nonempty backed sent writable answered delivered
      exact ⟨affected, _, u, d, rfl, answers, result, writable', queued', backed',
        fun later => .cons same carries sent' later⟩

theorem Queued.flush_executed (queued : Queued s t group) (room : group.length ≤ s.groupSize)
    (executable : Executable s group) (backed : t.Backed texts) (writable : c.writable = true)
    {counts : List (List Nat)} {rest : Bytes}
    (answers : Answers (Batch.flushPipelines t) c.incoming counts rest) :
    ∃ outcomes u d, Batch.flush t c = (.ok outcomes, u, d) ∧
      Executed s texts (groupsOf s.groupSize group) (Batch.flushPipelines t) c counts rest outcomes u d := by
  have positive : 0 < s.groupSize := Nat.le_max_left _ _
  by_cases none : group = []
  · subst none
    have pending : t.pending = none := queued.pending
    rw [Batch.flushPipelines, pending] at answers ⊢
    cases answers
    refine ⟨[], t.reset, c, by rw [Batch.flush, pending], ?_⟩
    rw [groupsOf_nil]
    exact .nil queued.reset backed.reset writable
  · have groups := groupsOf_single positive none room
    have fits := executable.fits group (by simp [groups])
    obtain ⟨requests, flushes, executed⟩ := queued.executed none executable.marks executable.few room
      executable.complete fits backed writable
    rw [flushes] at answers ⊢
    obtain ⟨affected, others, u, d, rfl, answers', result, writable', queued', backed', continues⟩ :=
      executed answers
    cases answers'
    refine ⟨groupOutcomes group.length affected, u, d, result, ?_⟩
    rw [groups, ← List.append_nil (groupOutcomes group.length affected)]
    exact continues (.nil queued' backed' writable')

theorem Queued.mergeRow_added (queued : Queued s t group) (arity : 0 < s.arity)
    (more : group = [] ∨ group.length < s.groupSize) {row : ParameterList} (length : row.length = s.arity)
    (backed : t.Backed texts) :
    ∃ u, Batch.mergeRow t (.single row) c = (.ok [], u, c) ∧ Batch.mergeRowPipelines t (.single row) = [] ∧
      Queued s u (group ++ [row]) ∧ u.Backed texts ∧ (group ++ [row]).length ≤ s.groupSize := by
  obtain ⟨u, added, queued', shapes⟩ := queued.addRow arity more length
  refine ⟨u, ?_, ?_, queued', queued.backed queued' shapes backed, ?_⟩
  · rw [Batch.mergeRow, added]
  · rw [Batch.mergeRowPipelines, added]
  · rw [List.length_append, List.length_singleton]
    rcases more with rfl | below
    · exact Nat.le_max_left _ _
    · exact below

theorem Queued.mergeRow_executed (queued : Queued s t group) (nonempty : group ≠ [])
    (full : group.length = s.groupSize) (executable : Executable s group) {row : ParameterList}
    (length : row.length = s.arity) (backed : t.Backed texts) (writable : c.writable = true) :
    ∃ requests, Batch.mergeRowPipelines t (.single row) = [requests] ∧
      ∀ {pipelines counts rest}, Answers (requests :: pipelines) c.incoming counts rest →
        ∃ affected others u d, Answers pipelines d.incoming others rest ∧
          Batch.mergeRow t (.single row) c = (.ok (groupOutcomes group.length affected), u, d) ∧
          d.writable = true ∧ Queued s u [row] ∧ u.Backed (texts.afterAll (pipelineOf requests)) ∧
          ∀ {groups outcomes v e},
            Executed s (texts.afterAll (pipelineOf requests)) groups pipelines d others rest outcomes v e →
            Executed s texts (group :: groups) (requests :: pipelines) c counts rest
              (groupOutcomes group.length affected ++ outcomes) v e := by
  have arity : 0 < s.arity := List.length_pos_iff.2 executable.marks
  have groups := groupsOf_single (Nat.le_max_left 1 (min s.maxRows (maxParameters / s.arity))) nonempty full.le
  have fits := executable.fits group (by rw [BatchedStatement.groupSize, groups]; simp)
  have refused := queued.full arity nonempty full length
  obtain ⟨requests, flushes, executed⟩ := queued.executed nonempty executable.marks executable.few full.le
    executable.complete fits backed writable
  refine ⟨requests, by rw [Batch.mergeRowPipelines, refused]; exact flushes, fun answers => ?_⟩
  obtain ⟨affected, others, u, d, -, answers', result, writable', queued', backed', continues⟩ :=
    executed answers
  obtain ⟨v, added, queued'', shapes⟩ := queued'.addRow arity (.inl rfl) length
  refine ⟨affected, others, v, d, answers', ?_, writable', queued'', queued'.backed queued'' shapes backed',
    continues⟩
  rw [Batch.mergeRow, refused]
  dsimp only
  rw [result]
  dsimp only
  rw [added]

theorem Executable.of_groups {group later : List ParameterList} (executable : Executable s (group ++ later))
    (groups : groupsOf s.groupSize (group ++ later) = group :: groupsOf s.groupSize later)
    (single : groupsOf s.groupSize group = [group]) : Executable s group ∧ Executable s later := by
  constructor
  · refine ⟨executable.marks, executable.few, fun row member => ?_, fun other member => ?_⟩
    · exact executable.complete row (List.mem_append_left _ member)
    · rw [single, List.mem_singleton] at member
      exact executable.fits other (by rw [groups, member]; simp)
  · refine ⟨executable.marks, executable.few, fun row member => ?_, fun other member => ?_⟩
    · exact executable.complete row (List.mem_append_right _ member)
    · exact executable.fits other (by rw [groups]; exact List.mem_cons_of_mem _ member)

theorem mergeRows_executed (later : List ParameterList) (queued : Queued s t group)
    (room : group.length ≤ s.groupSize) (executable : Executable s (group ++ later)) (backed : t.Backed texts)
    {counts : List (List Nat)} {rest : Bytes} (writable : c.writable = true)
    (answers : Answers (Batch.mergeRowsPipelines t (later.map .single) c) c.incoming counts rest)
    (done : List RowOutcome) :
    ∃ outcomes u d, Batch.mergeRows done t (later.map .single) c = (.ok (done ++ outcomes), u, d) ∧
      Executed s texts (groupsOf s.groupSize (group ++ later))
        (Batch.mergeRowsPipelines t (later.map .single) c) c counts rest outcomes u d := by
  have positive : 0 < s.groupSize := Nat.le_max_left _ _
  have arity : 0 < s.arity := List.length_pos_iff.2 executable.marks
  -- `group` holds the rows that are queued, `later` those that are not.
  induction later generalizing t group texts c counts done with
  | nil =>
    rw [List.append_nil] at executable ⊢
    obtain ⟨outcomes, u, d, result, executed⟩ := queued.flush_executed room executable backed writable answers
    refine ⟨outcomes, u, d, ?_, executed⟩
    change ((Batch.flush t c).1.map (done ++ ·), (Batch.flush t c).2.1, (Batch.flush t c).2.2) = _
    rw [result]
    rfl
  | cons row later ih =>
    have length := (executable.complete row (by simp)).1
    rw [List.map_cons, Batch.mergeRowsPipelines] at answers
    rw [List.map_cons, Batch.mergeRowsPipelines, Batch.mergeRows]
    by_cases more : group = [] ∨ group.length < s.groupSize
    · obtain ⟨u, merged, silent, queued', backed', room'⟩ :=
        queued.mergeRow_added (c := c) arity more length backed
      have all : group ++ row :: later = group ++ [row] ++ later := by simp
      rw [merged, silent] at answers ⊢
      rw [all] at executable ⊢
      dsimp only
      rw [List.append_nil]
      exact ih queued' room' executable backed' writable answers done
    · -- The group is full: it is flushed, and the row is the first one of the next group.
      obtain ⟨nonempty, most⟩ := not_or.1 more
      have size : group.length = s.groupSize := Nat.le_antisymm room (Nat.not_lt.1 most)
      have groups := groupsOf_append positive size (row :: later)
      obtain ⟨here, behind⟩ := executable.of_groups groups (groupsOf_single positive nonempty room)
      obtain ⟨requests, flushes, executed⟩ := queued.mergeRow_executed nonempty size here length backed writable
      rw [flushes] at answers ⊢
      obtain ⟨affected, others, u, d, answers', result, writable', queued', backed', continues⟩ :=
        executed answers
      rw [result] at answers' continues ⊢
      obtain ⟨outcomes, v, e, results, executed'⟩ :=
        ih queued' positive behind backed' writable' answers' (done ++ groupOutcomes group.length affected)
      refine ⟨groupOutcomes group.length affected ++ outcomes, v, e, ?_, ?_⟩
      · dsimp only
        rw [results, List.append_assoc]
      · rw [groups]
        exact continues executed'

end

def carried : FrontendMessage → List (Format × Option Bytes)
  | .bind m => m.formats.zip m.values
  | _ => []

theorem Carries.carried {s : BatchedStatement} {texts : Texts} {group : List ParameterList}
    {front : List FrontendMessage} {bind : Bind} (carries : Carries s texts group front bind) :
    (front ++ [FrontendMessage.bind bind, .execute "" 0]).flatMap carried =
      group.flatten.map fun p => (p.format, p.bytes?) := by
  have silent : front.flatMap ExtendedQuery.carried = [] := by
    refine List.flatMap_eq_nil_iff.2 fun m member => ?_
    cases m with
    | bind m => exact absurd rfl (carries.alone _ member m)
    | _ => rfl
  rw [List.flatMap_append, silent, List.nil_append]
  change bind.formats.zip bind.values ++ [] = _
  rw [List.append_nil, carries.formats, carries.values, List.zip_map']

theorem Merges.carried {s : BatchedStatement} {texts : Texts} {groups : List (List ParameterList)}
    {pipelines : List (List Request)} {counts : List (List Nat)} {outcomes : List RowOutcome}
    (merges : Merges s texts groups pipelines counts outcomes) :
    pipelines.flatMap (fun requests => (requests.map (·.message)).flatMap carried) =
      groups.flatten.flatten.map fun p => (p.format, p.bytes?) := by
  induction merges with
  | nil => rfl
  | cons same carries _ ih =>
    rw [List.flatMap_cons, same, carries.carried, ih, List.flatten_cons, List.flatten_append, List.map_append]

theorem Merges.length {s : BatchedStatement} {texts : Texts} {groups : List (List ParameterList)}
    {pipelines : List (List Request)} {counts : List (List Nat)} {outcomes : List RowOutcome}
    (merges : Merges s texts groups pipelines counts outcomes) : outcomes.length = groups.flatten.length := by
  induction merges with
  | nil => rfl
  | @cons _ group _ _ _ _ _ affected _ _ _ _ _ ih =>
    have one : (groupOutcomes group.length affected).length = group.length := by
      unfold groupOutcomes
      split
      · rename_i single
        exact single.symm
      · exact List.length_replicate
    rw [List.length_append, ih, one, List.flatten_cons, List.length_append]

namespace Batch

theorem add_batched {s : BatchedStatement} {queued : List Parameters} {row : Parameters} {batch : Batch}
    (added : Batch.add ⟨.batched s, queued⟩ row = .ok batch) :
    batch = ⟨.batched s, queued ++ [row]⟩ ∧
      ∃ list, row = .single list ∧ list.length = s.arity ∧ ∀ p ∈ list, p.isBound = true := by
  unfold add at added
  cases row with
  | composite lists =>
    cases set : (Parameters.composite lists).checkAllSet <;> rw [set] at added <;> cases added
  | single list =>
    cases set : (Parameters.single list).checkAllSet with
    | error e =>
      rw [set] at added
      cases added
    | ok =>
      rw [set] at added
      by_cases other : list.length ≠ s.arity
      · simp only [if_pos other] at added
        cases added
      · simp only [if_neg other] at added
        cases added
        exact ⟨rfl, list, rfl, not_not.1 other, checkAllSet_ok.1 set⟩

theorem foldlM_add {s : BatchedStatement} {rows queued : List Parameters} {batch : Batch}
    (added : rows.foldlM add ⟨.batched s, queued⟩ = .ok batch) :
    batch = ⟨.batched s, queued ++ rows⟩ ∧ ∃ lists, rows = lists.map .single ∧ Complete s lists := by
  induction rows generalizing queued with
  | nil =>
    cases added
    exact ⟨by rw [List.append_nil], [], rfl, fun _ member => by cases member⟩
  | cons row rows ih =>
    rw [List.foldlM_cons] at added
    cases first : add ⟨.batched s, queued⟩ row with
    | error e => rw [first] at added; cases added
    | ok next =>
      rw [first] at added
      obtain ⟨rfl, list, rfl, length, bound⟩ := add_batched first
      obtain ⟨rfl, lists, rfl, complete⟩ := ih added
      refine ⟨by rw [List.append_assoc]; rfl, list :: lists, rfl, fun other member => ?_⟩
      rcases List.mem_cons.1 member with rfl | inside
      · exact ⟨length, bound⟩
      · exact complete other inside

/-- A batch of any rows is executed in groups, by a server that acknowledges everything: every group is
merged into one statement, no row is lost, and the insert returns to a single row. -/
theorem execute_merges {s : BatchedStatement} {rows : List Parameters} {batch : Batch} {texts : Texts}
    {c : Connection} {counts : List (List Nat)} {rest : Bytes} (growable : s.base.isGrowable = true)
    (few : s.arity ≤ maxParameters) (single : s.rows = 1) (empty : s.pending = none) (backed : s.Backed texts)
    (added : rows.foldlM add (new (.batched s)) = .ok batch)
    (fits : ∀ lists, rows = lists.map .single → ∀ group ∈ groupsOf s.groupSize lists,
      Binding.Fits ⟨s.reshape group.length, group.flatten⟩)
    (writable : c.writable = true) (answers : Answers (batch.pipelines c) c.incoming counts rest) :
    ∃ lists outcomes u d, rows = lists.map .single ∧
      batch.execute c = (.ok outcomes, new (.batched u), d) ∧
      Executed s texts (groupsOf s.groupSize lists) (batch.pipelines c) c counts rest outcomes u d ∧
      outcomes.length = rows.length ∧
      (batch.pipelines c).flatMap (fun requests => (requests.map (·.message)).flatMap carried) =
        lists.flatten.map fun p => (p.format, p.bytes?) := by
  obtain ⟨rfl, lists, rfl, complete⟩ := foldlM_add added
  have marks := Sql.Fragments.later_ne_nil_of_isGrowable growable
  have queued : Queued s s [] := ⟨rfl, rfl, rfl, single, empty⟩
  have executable : Executable s ([] ++ lists) := ⟨marks, few, complete, fits lists rfl⟩
  obtain ⟨outcomes, u, d, result, executed⟩ :=
    mergeRows_executed lists queued (Nat.zero_le _) executable backed writable answers []
  have flatten := flatten_groupsOf (Nat.le_max_left 1 (min s.maxRows (maxParameters / s.arity))) lists
  refine ⟨lists, outcomes, u.reset, d, rfl, ?_, ?_, ?_, ?_⟩
  · rw [execute]
    dsimp only [new]
    rw [List.nil_append, result]
    rfl
  · exact { executed with queued := executed.queued.reset, backed := executed.backed.reset }
  · rw [executed.merges.length]
    change (groupsOf s.groupSize lists).flatten.length = _
    rw [BatchedStatement.groupSize, flatten, List.length_map]
  · refine executed.merges.carried.trans ?_
    change (groupsOf s.groupSize lists).flatten.flatten.map _ = _
    rw [BatchedStatement.groupSize, flatten]

def pairInsert : BatchedStatement :=
  .ofStatement (.ofFragments ⟨"INSERT INTO t VALUES (".toList, [[')']]⟩ (.numbered 0)) 2

def pairRow (text : String) : ParameterList := [⟨.value (.text text), Oid.text, .input, .text⟩]

def pairRequests : List Request :=
  [.parse ⟨"q00000_2", "INSERT INTO t VALUES ($1),($2)", 2, [Oid.text, Oid.text]⟩,
    .describe statementTarget "q00000_2",
    .bind ⟨"", "q00000_2", 2, [.text, .text], 2, 10, [some [97], some [98]], 0, []⟩,
    .execute "" 0].map (Request.mk "INSERT INTO t VALUES ($1),($2)" [Oid.text, Oid.text])

def pairReplies : Bytes :=
  backendFrame 0x31 [] ++ (backendFrame 0x74 [0, 2, 0, 0, 0, 25, 0, 0, 0, 25] ++ (backendFrame 0x6E [] ++
    (backendFrame 0x32 [] ++ (backendFrame 0x43 [73, 78, 83, 69, 82, 84, 32, 48, 32, 50, 0] ++
      (backendFrame 0x5A [0x49] ++ [])))))

theorem pairRequests_answered : Answers [pairRequests] pairReplies [[2]] [] := by
  have executed : Answered [.execute "" 0, .sync] ([] ++ [.commandComplete "INSERT 0 2"] ++ [.readyForQuery]) [2] :=
    .execute (by simp) (.tag : Completes 0 (.commandComplete "INSERT 0 2") 2) (.other (by simp) .sync .nil)
  have decoded : decodeOids 2 [0, 0, 0, 25, 0, 0, 0, 25] = .ok [Oid.text, Oid.text] := by rfl
  refine .cons (.other (by simp) .parse (.other (by simp) (.describe decoded .noData)
    (.other (by simp) .bind executed))) ?_ .nil
  refine .message (by decide) (by decide) (by decide) rfl ?_
  refine .message (by decide) (by decide) (by decide) rfl ?_
  refine .message (by decide) (by decide) (by decide) rfl ?_
  refine .message (by decide) (by decide) (by decide) rfl ?_
  refine .message (by decide) (by decide) (by decide) rfl ?_
  exact .message (by decide) (by decide) (by decide) rfl .nil

theorem pairInsert_backed : pairInsert.Backed fun _ => none := by
  refine ⟨Nat.one_pos, List.Pairwise.nil, ?_, fun _ => rfl⟩
  intro _ rows _ parsed
  cases parsed

theorem pairRows_fit : Binding.Fits ⟨pairInsert.reshape 2, [pairRow "a", pairRow "b"].flatten⟩ := by
  refine ⟨?_, by decide, by decide⟩
  intro p member bytes same
  simp only [pairRow, List.flatten_cons, List.flatten_nil, List.cons_append, List.nil_append,
    List.mem_cons, List.not_mem_nil, or_false] at member
  rcases member with rfl | rfl <;> cases same <;> decide

theorem execute_merges_two :
    ∃ outcomes u d, execute ⟨.batched pairInsert, [pairRow "a", pairRow "b"].map .single⟩
        ⟨pairReplies, [], true, .default⟩ = (.ok outcomes, new (.batched u), d) ∧
      outcomes.length = 2 ∧ d.incoming = [] ∧ u.rows = 1 := by
  have added : ([pairRow "a", pairRow "b"].map Parameters.single).foldlM add (new (.batched pairInsert)) =
      .ok ⟨.batched pairInsert, [pairRow "a", pairRow "b"].map .single⟩ := by rfl
  have groups : groupsOf pairInsert.groupSize [pairRow "a", pairRow "b"] = [[pairRow "a", pairRow "b"]] :=
    groupsOf_single (by decide) (by simp) (by decide)
  have fits : ∀ lists, [pairRow "a", pairRow "b"].map Parameters.single = lists.map .single →
      ∀ group ∈ groupsOf pairInsert.groupSize lists,
        Binding.Fits ⟨pairInsert.reshape group.length, group.flatten⟩ := by
    intro lists same group member
    have two := List.map_injective_iff.2 (fun _ _ h => Parameters.single.inj h) same
    rw [← two, groups, List.mem_singleton] at member
    rw [member]
    exact pairRows_fit
  have sent : pipelines ⟨.batched pairInsert, [pairRow "a", pairRow "b"].map .single⟩
      ⟨pairReplies, [], true, .default⟩ = [pairRequests] := by rfl
  have answers := pairRequests_answered
  rw [← sent] at answers
  obtain ⟨lists, outcomes, u, d, -, result, executed, length, -⟩ :=
    execute_merges (by decide) (by decide) rfl rfl pairInsert_backed added fits rfl answers
  exact ⟨outcomes, u, d, result, length, executed.read, executed.queued.rows⟩

end Batch

end ExtendedQuery
