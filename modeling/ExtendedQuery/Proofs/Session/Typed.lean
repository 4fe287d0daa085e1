import ExtendedQuery.Proofs.Session.Rebinding
import ExtendedQuery.Proofs.Session.Synchronised

/-!
# Calls on a server that types its statements

A call writes its pipelines one after the other. The server serves each of them to its end, or it stops in one of
the messages and reports an error (`TypingServer.Talks`). Either way the records of a query stay in line with the
types that the server gives (`Query.Continues`), and an execution that succeeds leaves a query that only binds and
executes (`Query.execute_keeps`).
-/

namespace ExtendedQuery

open Wire TypingServer

namespace TypingServer

/-- The replies to pipelines, which are all lost if nothing can be written. -/
inductive Talks (marks : String → Nat) : (writable : Bool) → Holdings → List (List Request) → (incoming : Bytes) →
    Holdings → (rest : Bytes) → Prop
  | nil {writable : Bool} {held : Holdings} {incoming : Bytes} : Talks marks writable held [] incoming held incoming
  | unsent {held last : Holdings} {requests : List Request} {later : List (List Request)} {incoming rest : Bytes} :
      Talks marks false held later incoming last rest →
      Talks marks false held (requests :: later) incoming last rest
  | served {held middle last : Holdings} {requests : List Request} {later : List (List Request)}
      {replies : List BackendMessage} {incoming between rest : Bytes} :
      Runs marks held (pipelineOf requests) replies true middle → Delivers replies incoming between →
      Talks marks true middle later between last rest →
      Talks marks true held (requests :: later) incoming last rest
  | refused {held middle last : Holdings} {requests : List Request} {later : List (List Request)}
      {begun after : List BackendMessage} {report : Report} {incoming between rest : Bytes} :
      Runs marks held (pipelineOf requests) begun false middle → .readyForQuery ∉ after →
      Delivers (begun ++ .errorResponse report :: (after ++ [.readyForQuery])) incoming between →
      Talks marks true middle later between last rest →
      Talks marks true held (requests :: later) incoming last rest

variable {marks : String → Nat} {writable : Bool} {held last : Holdings} {incoming rest : Bytes}

theorem Talks.of_nil (talks : Talks marks writable held [] incoming last rest) : last = held ∧ rest = incoming := by
  cases talks
  exact ⟨rfl, rfl⟩

theorem Talks.of_append {a b : List (List Request)}
    (talks : Talks marks writable held (a ++ b) incoming last rest) :
    ∃ middle between, Talks marks writable held a incoming middle between ∧
      Talks marks writable middle b between last rest := by
  induction a generalizing held incoming with
  | nil => exact ⟨held, incoming, .nil, talks⟩
  | cons requests a ih =>
    cases talks with
    | unsent later =>
      obtain ⟨middle, between, front, back⟩ := ih later
      exact ⟨middle, between, .unsent front, back⟩
    | served runs delivered later =>
      obtain ⟨middle, between, front, back⟩ := ih later
      exact ⟨middle, between, .served runs delivered front, back⟩
    | refused runs unready delivered later =>
      obtain ⟨middle, between, front, back⟩ := ih later
      exact ⟨middle, between, .refused runs unready delivered front, back⟩

end TypingServer

def Keeps (marks : String → Nat) (held : Holdings) (c : Connection) (pipelines : List (List Request))
    (d : Connection) (after : Holdings → Prop) : Prop :=
  ∀ last rest, Talks marks c.writable held pipelines c.incoming last rest →
    d.writable = c.writable ∧ d.incoming = rest ∧ after last

namespace Keeps

variable {marks : String → Nat} {held : Holdings} {c d e : Connection} {after after' : Holdings → Prop}
  {pipelines later : List (List Request)}

theorem nothing (now : after held) : Keeps marks held c [] c after := by
  intro last rest talks
  obtain ⟨rfl, rfl⟩ := talks.of_nil
  exact ⟨rfl, rfl, now⟩

theorem mono (keeps : Keeps marks held c pipelines d after) (weaker : ∀ held', after held' → after' held') :
    Keeps marks held c pipelines d after' := by
  intro last rest talks
  obtain ⟨writable, read, now⟩ := keeps last rest talks
  exact ⟨writable, read, weaker last now⟩

theorem append (first : Keeps marks held c pipelines d after)
    (second : ∀ held', after held' → Keeps marks held' d later e after') :
    Keeps marks held c (pipelines ++ later) e after' := by
  intro last rest talks
  obtain ⟨middle, between, front, back⟩ := talks.of_append
  obtain ⟨writable, read, now⟩ := first middle between front
  rw [← writable, ← read] at back
  obtain ⟨writable', read', now'⟩ := second middle now last rest back
  exact ⟨writable'.trans writable, read', now'⟩

end Keeps

section

variable {σ : Type} [Descriptor σ]

theorem exchange_writable (bindings : List (Binding σ)) (c : Connection) :
    (exchange bindings c).2.2.writable = c.writable := by
  cases writable : c.writable with
  | false =>
    obtain ⟨e, nothing⟩ := exchange_of_unwritable writable bindings
    rw [nothing]
    exact writable
  | true =>
    cases sent : requests? bindings with
    | none =>
      obtain ⟨e, nothing⟩ := exchange_of_no_requests sent c
      rw [nothing]
      exact writable
    | some requests =>
      obtain ⟨planned, units, bytes, -, -, -, -, -, exchanged⟩ := exchange_of_requests sent
      have quiet := awaitAll_quiet planned { c with sent := c.sent ++ [bytes] }
      rw [exchanged c writable]
      generalize awaitAll planned { c with sent := c.sent ++ [bytes] } = result at quiet ⊢
      obtain ⟨outcome, bindings, d⟩ := result
      have same := (quiet.trans (d.resynchronise_quiet outcome)).writable
      exact same.trans writable

variable [Tracked σ] [TypeTracked σ] {marks : String → Nat} {held last : Holdings}

open TypeTracked

structure Advances (marks : String → Nat) (held : Holdings) (bindings : List (Binding σ))
    (outcome : Except Error (List Nat)) (bindings' : List (Binding σ)) : Prop where
  typed : ∀ b ∈ bindings', Typed marks held b.statement
  same : bindings'.map Binding.identity = bindings.map Binding.identity
  rebinds {counts : List Nat} : outcome = .ok counts → AllRebind bindings'

theorem advances_error {bindings : List (Binding σ)} (typed : ∀ b ∈ bindings, Typed marks held b.statement)
    (e : Error) : Advances marks held bindings (.error e) bindings :=
  ⟨typed, rfl, by simp⟩

theorem Advances.one {b b' : Binding σ} {outcome : Except Error (List Nat)}
    (advances : Advances marks held [b] outcome [b']) : Typed marks held b'.statement ∧ b'.identity = b.identity :=
  ⟨advances.typed b' (by simp), (List.cons.inj advances.same).1⟩

variable [KeepsTypes σ]

theorem acknowledged_runs {bindings : List (Binding σ)} {requests : List Request}
    (sent : requests? bindings = some requests) (typed : ∀ b ∈ bindings, Typed marks held b.statement)
    (apart : bindings.Pairwise fun a b => Apart a.statement b.statement) {replies : List BackendMessage}
    {whole : Bool} (runs : Runs marks held (pipelineOf requests) replies whole last) :
    (∀ b ∈ acknowledged bindings replies, Typed marks last b.statement) ∧
      (acknowledged bindings replies).map Binding.identity = bindings.map Binding.identity ∧
      (whole = true → AllRebind (acknowledged bindings replies)) := by
  obtain ⟨planned, units, bytes, rfl, plans, made, rfl, written, -⟩ := exchange_of_requests sent
  rw [List.pairwise_map] at apart
  have each := runs_units made plans (fun p among => typed p.1 (List.mem_map_of_mem among)) apart runs
  have same := map_sharedOut Binding.identity identity_noted planned replies
  rw [acknowledged_of_plans plans]
  refine ⟨fun b member => (each b member).1, ?_, fun served b member => ?_⟩
  · rw [same, List.map_map]
    rfl
  · have identity := List.mem_map_of_mem (f := Binding.identity) member
    rw [same] at identity
    obtain ⟨p, among, identity⟩ := List.mem_map.1 identity
    obtain ⟨unit, inside, first⟩ := exists_of_mem_right made.flip among
    obtain ⟨messages, made, rfl⟩ := Option.map_eq_some_iff.1 first
    apply ((each b member).2 served).rebinds identity.symm (plans p among) made
    intro m found
    apply framed_of_writeAll? written
    have request : p.1.request m ∈ units.flatten :=
      List.mem_flatten.2 ⟨_, inside, List.mem_map_of_mem found⟩
    exact List.mem_append_left _ (List.mem_map_of_mem (f := Request.message) request)

theorem exchange_keeps {bindings : List (Binding σ)} (typed : ∀ b ∈ bindings, Typed marks held b.statement)
    (apart : bindings.Pairwise fun a b => Apart a.statement b.statement) (c : Connection) :
    Keeps marks held c (pipelines bindings) (exchange bindings c).2.2 fun held' =>
      Advances marks held' bindings (exchange bindings c).1 (exchange bindings c).2.1 := by
  intro last rest talks
  refine ⟨exchange_writable bindings c, ?_⟩
  unfold pipelines at talks
  cases sent : requests? bindings with
  | none =>
    rw [sent] at talks
    obtain ⟨rfl, rfl⟩ := talks.of_nil
    obtain ⟨e, nothing⟩ := exchange_of_no_requests sent c
    rw [nothing]
    exact ⟨rfl, advances_error typed e⟩
  | some requests =>
    rw [sent] at talks
    cases writable : c.writable with
    | false =>
      rw [writable] at talks
      cases talks with
      | unsent later =>
        cases later
        obtain ⟨e, nothing⟩ := exchange_of_unwritable writable bindings
        rw [nothing]
        exact ⟨rfl, advances_error typed e⟩
    | true =>
      rw [writable] at talks
      have step := exchange_inStep sent writable
      cases talks with
      | served runs delivered later =>
        cases later
        obtain ⟨counts, answered⟩ := runs.served
        obtain ⟨-, -, read, recorded⟩ := step.acknowledged answered delivered
        obtain ⟨typed', same, rebinds⟩ := acknowledged_runs sent typed apart runs
        rw [recorded]
        exact ⟨read, typed', same, fun _ => rebinds rfl⟩
      | refused runs unready delivered later =>
        cases later
        obtain ⟨next, others, counts, answered⟩ := runs.stopped
        obtain ⟨outcome, -, read, recorded⟩ := step.refused answered unready delivered
        obtain ⟨typed', same, -⟩ := acknowledged_runs sent typed apart runs
        rw [outcome, recorded]
        exact ⟨read, typed', same, by simp⟩

theorem exchangeOne_keeps {s : σ} (typed : Typed marks held s) (parameters : ParameterList) (c : Connection) :
    Keeps marks held c (pipelines [⟨s, parameters⟩]) (exchangeOne s parameters c).2.2 fun held' =>
      Advances marks held' [⟨s, parameters⟩] (exchangeOne s parameters c).1 [(exchangeOne s parameters c).2.1] := by
  have one : ∀ b ∈ [(⟨s, parameters⟩ : Binding σ)], Typed marks held b.statement := by simpa using typed
  apply (exchange_keeps one (List.pairwise_singleton _ _) c).mono
  intro held' advances
  have length := congrArg List.length advances.same
  rw [List.length_map, List.length_map] at length
  obtain ⟨b, only⟩ := List.length_eq_one_iff.1 length
  unfold exchangeOne
  dsimp only
  rw [only] at advances ⊢
  exact advances

end

namespace Query

variable {marks : String → Nat} {held : Holdings} {query : Query}

def Typed (marks : String → Nat) (held : Holdings) : Query → Prop
  | .single s => s.Typed marks held
  | .batched s => s.Typed marks held
  | .composite statements => ∀ s ∈ statements, s.Typed marks held

structure Continues (marks : String → Nat) (query : Query) (held : Holdings) (query' : Query) : Prop where
  names : query'.names = query.names
  typed : query'.Typed marks held

theorem Continues.trans {held' : Holdings} {query' query'' : Query} (first : query.Continues marks held query')
    (second : query'.Continues marks held' query'') : query.Continues marks held' query'' :=
  ⟨second.names.trans first.names, second.typed⟩

theorem zipWith_mk_map {σ : Type} (bindings : List (Binding σ)) :
    List.zipWith Binding.mk (bindings.map (·.statement)) (bindings.map (·.parameters)) = bindings := by
  rw [List.zipWith_map, List.zipWith_self, List.map_id']

theorem name_of_identity {b b' : Binding Statement} (same : b'.identity = b.identity) :
    b'.statement.name = b.statement.name :=
  congrArg Descriptor.name (Prod.mk.inj same).1

structure Executed (marks : String → Nat) (query : Query) (held : Holdings) (outcome : Except Error (List Nat))
    (query' : Query) (parameters' : Parameters) : Prop where
  continues : query.Continues marks held query'
  rebinds {counts : List Nat} : outcome = .ok counts → query'.Rebinds parameters'

theorem executed_batched {s : BatchedStatement} {list : ParameterList} (length : list.length = s.arity)
    {b : Binding BatchedStatement} {outcome : Except Error (List Nat)}
    (advances : Advances marks held [⟨s.reset, list⟩] outcome [b]) :
    Executed marks (.batched s) held outcome (.batched b.statement) (.single b.parameters) := by
  obtain ⟨typed, same⟩ := advances.one
  obtain ⟨bare, -⟩ := Prod.mk.inj same
  obtain ⟨base, baseName, -, rows, pending⟩ := BatchedStatement.eq_of_bare bare
  obtain ⟨base', baseName', -⟩ := s.reset_same
  obtain ⟨rows', pending', -⟩ := s.reset_single
  constructor
  · constructor
    · rw [names, names, baseName, baseName']
    · exact typed
  · intro counts ok
    refine ⟨?_, ?_, advances.rebinds ok⟩
    · rw [length_of_identity same, BatchedStatement.arity, base, base']
      exact length
    · have idle : ({ b.statement with pending := none } : BatchedStatement) = b.statement := by
        rw [← pending', ← pending]
      unfold BatchedStatement.reset
      dsimp only
      rw [if_pos (rows.trans rows'), idle]

theorem executed_composite {statements : List Statement} {lists : List ParameterList}
    (length : statements.length = lists.length) {bindings : List (Binding Statement)}
    {outcome : Except Error (List Nat)}
    (advances : Advances marks held (List.zipWith Binding.mk statements lists) outcome bindings) :
    Executed marks (.composite statements) held outcome (.composite (bindings.map (·.statement)))
      (.composite (bindings.map (·.parameters))) := by
  have name := congrArg (List.map fun identity => Statement.name identity.1) advances.same
  rw [List.map_map, List.map_map] at name
  constructor
  · constructor
    · conv_rhs => rw [names, ← map_statement_zipWith length, List.map_map]
      rw [names, List.map_map]
      exact name
    · intro s member
      obtain ⟨b, inside, rfl⟩ := List.mem_map.1 member
      exact advances.typed b inside
  · intro counts ok
    constructor
    · rw [List.length_map, List.length_map]
    · rw [zipWith_mk_map]
      exact advances.rebinds ok

theorem execute_keeps (typed : query.Typed marks held) (distinct : query.keptNames.Nodup) (parameters : Parameters)
    (c : Connection) :
    Keeps marks held c (query.pipelines parameters) (query.execute parameters c).connection fun held' =>
      query.Executed marks held' (query.execute parameters c).outcome (query.execute parameters c).query
        (query.execute parameters c).parameters := by
  cases pairing query parameters with
  | single s list =>
    apply (exchangeOne_keeps (s := s) typed list c).mono
    intro held' advances
    obtain ⟨typed', same⟩ := advances.one
    constructor
    · exact ⟨congrArg ([·]) (name_of_identity same), typed'⟩
    · exact advances.rebinds
  | @batched s list length =>
    rw [pipelines_batched length, execute_batched length]
    apply (exchangeOne_keeps (s := s.reset) typed.reset list c).mono
    intro held' advances
    exact executed_batched length advances
  | @composite statements lists length =>
    have bound : ∀ b ∈ List.zipWith Binding.mk statements lists, b.statement.Typed marks held :=
      fun b member => typed b.statement (mem_statements length member)
    rw [pipelines_composite length, execute_composite length]
    apply (exchange_keeps bound (apart_bindings length distinct) c).mono
    intro held' advances
    exact executed_composite length advances
  | refused e none same =>
    rw [none, same]
    apply Keeps.nothing
    constructor
    · exact ⟨rfl, typed⟩
    · simp

end Query

namespace Batch

variable {marks : String → Nat} {held : Holdings} {s : BatchedStatement}

theorem continues_reset (typed : s.Typed marks held) : Query.Continues marks (.batched s) held (.batched s.reset) := by
  obtain ⟨-, baseName, -⟩ := s.reset_same
  exact ⟨congrArg ([·]) baseName, typed.reset⟩

theorem continues_addRow {t : BatchedStatement} (typed : s.Typed marks held) {row : ParameterList}
    (added : s.addRow row = .ok t) : Query.Continues marks (.batched s) held (.batched t) := by
  obtain ⟨typed', baseName⟩ := typed.addRow added
  exact ⟨congrArg ([·]) baseName, typed'⟩

theorem flush_keeps (typed : s.Typed marks held) (c : Connection) :
    Keeps marks held c (flushPipelines s) (flush s c).2.2 fun held' =>
      Query.Continues marks (.batched s) held' (.batched (flush s c).2.1) := by
  unfold flushPipelines flush
  cases s.pending with
  | none => exact .nothing (continues_reset typed)
  | some queued =>
    have keeps := exchangeOne_keeps (s := { s with pending := none }) (typed.withPending none) queued c
    refine keeps.mono fun held' advances => ?_
    obtain ⟨typed', same⟩ := advances.one
    obtain ⟨-, baseName, -⟩ := BatchedStatement.eq_of_bare (Prod.mk.inj same).1
    have sent : Query.Continues marks (.batched s) held' (.batched _) := ⟨congrArg ([·]) baseName, typed'⟩
    exact sent.trans (continues_reset sent.typed)

theorem mergeRow_keeps (typed : s.Typed marks held) (row : Parameters) (c : Connection) :
    Keeps marks held c (mergeRowPipelines s row) (mergeRow s row c).2.2 fun held' =>
      Query.Continues marks (.batched s) held' (.batched (mergeRow s row c).2.1) := by
  have still : Query.Continues marks (.batched s) held (.batched s) := ⟨rfl, typed⟩
  unfold mergeRowPipelines mergeRow
  cases row with
  | composite lists => exact .nothing still
  | single list =>
    dsimp only
    cases added : s.addRow list with
    | ok t => exact .nothing (continues_addRow typed added)
    | error e =>
      cases e with
      | full rows =>
        have flushed := flush_keeps typed c
        generalize flush s c = result at flushed ⊢
        obtain ⟨outcome, t, d⟩ := result
        cases outcome with
        | error e => exact flushed
        | ok outcomes =>
          dsimp only
          cases again : t.addRow list with
          | error e => exact flushed
          | ok u =>
            apply flushed.mono
            intro held' continues
            exact continues.trans (continues_addRow continues.typed again)
      | arityMismatch expected found => exact .nothing still
      | notGrowable => exact .nothing still

theorem mergeRows_keeps (rows : List Parameters) (typed : s.Typed marks held) (c : Connection)
    (done : List RowOutcome) :
    Keeps marks held c (mergeRowsPipelines s rows c) (mergeRows done s rows c).2.2 fun held' =>
      Query.Continues marks (.batched s) held' (.batched (mergeRows done s rows c).2.1) := by
  induction rows generalizing s held c done with
  | nil => exact flush_keeps typed c
  | cons row later ih =>
    unfold mergeRowsPipelines mergeRows
    apply (mergeRow_keeps typed row c).append
    intro held' continues
    generalize mergeRow s row c = result at continues ⊢
    obtain ⟨outcome, t, d⟩ := result
    cases outcome with
    | error e => exact .nothing continues
    | ok outcomes => exact (ih continues.typed d _).mono fun held'' later => continues.trans later

theorem executeRows_keeps (rows : List Parameters) {query : Query} (typed : query.Typed marks held)
    (distinct : query.keptNames.Nodup) (c : Connection) (done : List RowOutcome) :
    Keeps marks held c (executeRowsPipelines query rows c) (executeRows done query rows c).2.2 fun held' =>
      query.Continues marks held' (executeRows done query rows c).2.1 := by
  induction rows generalizing query held c done with
  | nil => exact .nothing ⟨rfl, typed⟩
  | cons row later ih =>
    unfold executeRowsPipelines executeRows
    apply (Query.execute_keeps typed distinct row c).append
    intro held' executed
    have continues := executed.continues
    dsimp only
    cases (query.execute row c).outcome with
    | error e => exact .nothing continues
    | ok affected =>
      rw [← Query.keptNames_of_names continues.names] at distinct
      exact (ih continues.typed distinct _ _).mono fun held'' later => continues.trans later

theorem execute_keeps {batch : Batch} (typed : batch.query.Typed marks held)
    (distinct : batch.query.keptNames.Nodup) (c : Connection) :
    Keeps marks held c (batch.pipelines c) (batch.execute c).2.2 fun held' =>
      batch.query.Continues marks held' (batch.execute c).2.1.query := by
  obtain ⟨query, rows⟩ := batch
  cases query with
  | batched s =>
    apply (mergeRows_keeps rows typed c []).mono
    intro held' continues
    exact continues.trans (continues_reset continues.typed)
  | single s => exact executeRows_keeps rows typed distinct c []
  | composite statements => exact executeRows_keeps rows typed distinct c []

end Batch

theorem Call.keeps {marks : String → Nat} {held : Holdings} {c d : Connection} {query query' : Query}
    {pipelines : List (List Request)} (call : Call c query pipelines d query') (typed : query.Typed marks held)
    (distinct : query.keptNames.Nodup) :
    Keeps marks held c pipelines d fun held' => query.Continues marks held' query' := by
  cases call with
  | execute parameters =>
    apply (Query.execute_keeps typed distinct parameters c).mono
    intro held' executed
    exact executed.continues
  | batch rows =>
    have keeps := @Batch.execute_keeps marks held ⟨query, rows⟩
    exact keeps typed distinct c

end ExtendedQuery
