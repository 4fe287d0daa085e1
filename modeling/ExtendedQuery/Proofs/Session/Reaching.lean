import ExtendedQuery.Proofs.Batch.Operations
import ExtendedQuery.Proofs.Session.Synchronised

/-!
# What becomes of statements

An exchange changes a statement by what it awaits, whatever is received. An insert is also grown, reset and
relieved of its rows, and every statement can be closed. Whatever a call does to a query is a sequence of such
steps of its statements, and each request of the call is sent for a statement that they lead to
(`Call.reaches`, `Call.asks`).
-/

namespace ExtendedQuery

open Wire Connection

/-! ## Requests of a statement -/

def Request.IsFor {σ : Type} [Descriptor σ] (r : Request) (b : Binding σ) : Prop :=
  ∃ plan messages, b.plan = .ok plan ∧ b.messages? plan = some messages ∧
    ∃ message ∈ messages, r = b.request message

/-- The request is among what is written for the statement. -/
structure Request.IsSentFor {σ : Type} [Descriptor σ] (r : Request) (b : Binding σ) : Prop where
  isFor : r.IsFor b
  framed : r.message.frame?.isSome

theorem isSentFor_of_pipelines {σ : Type} [Descriptor σ] {bindings : List (Binding σ)} {requests : List Request}
    (sent : requests ∈ pipelines bindings) {r : Request} (member : r ∈ requests) :
    ∃ b ∈ bindings, r.IsSentFor b := by
  have some := Option.mem_toList.1 sent
  obtain ⟨planned, units, bytes, rfl, plans, made, rfl, written, -⟩ := exchange_of_requests some
  have framed : r.message.frame?.isSome := by
    apply framed_of_writeAll? written
    exact List.mem_append_left _ (List.mem_map_of_mem member)
  obtain ⟨unit, inside, member⟩ := List.mem_flatten.1 member
  obtain ⟨p, among, first⟩ := exists_of_mem_right made inside
  obtain ⟨messages, made, rfl⟩ := Option.map_eq_some_iff.1 first
  obtain ⟨message, found, rfl⟩ := List.mem_map.1 member
  exact ⟨p.1, List.mem_map_of_mem among, ⟨p.2, messages, plans p among, made, message, found, rfl⟩, framed⟩

theorem forall₂_trans {α β γ : Type} {R : α → β → Prop} {S : β → γ → Prop} {T : α → γ → Prop}
    (step : ∀ a b c, R a b → S b c → T a c) {as : List α} {bs : List β} {cs : List γ}
    (early : List.Forall₂ R as bs) (late : List.Forall₂ S bs cs) : List.Forall₂ T as cs := by
  induction early generalizing cs with
  | nil =>
    cases late
    exact .nil
  | cons first _ ih =>
    cases late with
    | cons second later => exact .cons (step _ _ _ first second) (ih later)

/-! ## Executions on any connection -/

def Wire.BackendMessage.described? : BackendMessage → Option (List Oid)
  | .parameterDescription count body => (decodeOids count body).toOption
  | _ => none

section

variable {σ : Type} [Descriptor σ]

/-- What an exchange can do to a statement, whatever is received. -/
inductive Exchanged (b : Binding σ) : Binding σ → Prop
  | unchanged : Exchanged b b
  | awaited {plan : Plan} (c : Connection) : b.plan = .ok plan → Exchanged b (b.await plan.awaited c).2.1

theorem awaitAll_exchanged {planned : List (Binding σ × Plan)} (plans : ∀ p ∈ planned, p.1.plan = .ok p.2)
    (c : Connection) : List.Forall₂ (fun p b => Exchanged p.1 b) planned (awaitAll planned c).2.1 := by
  induction planned generalizing c with
  | nil => exact .nil
  | cons p later ih =>
    have first : Exchanged p.1 (awaitUnit p c).2.1 := by
      have awaited : Exchanged p.1 (p.1.await p.2.awaited c).2.1 := .awaited c (plans p (by simp))
      unfold awaitUnit
      generalize p.1.await p.2.awaited c = result at awaited ⊢
      obtain ⟨outcome, b, d⟩ := result
      cases outcome <;> exact awaited
    have ih := ih fun q member => plans q (by simp [member])
    rw [awaitAll_cons]
    generalize awaitUnit p c = result at first ⊢
    obtain ⟨outcome, b, d⟩ := result
    cases outcome with
    | error e =>
      have others : List.Forall₂ (fun p b => Exchanged p.1 b) later (later.map (·.1)) := by
        rw [List.forall₂_map_right_iff, List.forall₂_same]
        intro q _
        exact .unchanged
      exact .cons first others
    | ok affected => exact .cons first (ih d)

theorem exchange_exchanged (bindings : List (Binding σ)) (c : Connection) :
    List.Forall₂ Exchanged bindings (exchange bindings c).2.1 := by
  have still : List.Forall₂ Exchanged bindings bindings := by
    rw [List.forall₂_same]
    intro b _
    exact .unchanged
  cases sent : requests? bindings with
  | none =>
    obtain ⟨e, nothing⟩ := exchange_of_no_requests sent c
    rw [nothing]
    exact still
  | some requests =>
    cases writable : c.writable with
    | false =>
      obtain ⟨e, nothing⟩ := exchange_of_unwritable writable bindings
      rw [nothing]
      exact still
    | true =>
      obtain ⟨planned, units, bytes, rfl, plans, -, -, -, exchanged⟩ := exchange_of_requests sent
      rw [exchanged c writable, List.forall₂_map_left_iff]
      exact awaitAll_exchanged plans _

theorem exchangeOne_exchanged (s : σ) (list : ParameterList) (c : Connection) :
    Exchanged ⟨s, list⟩ (exchangeOne s list c).2.1 := by
  have steps := exchange_exchanged [(⟨s, list⟩ : Binding σ)] c
  unfold exchangeOne
  dsimp only
  generalize (exchange [(⟨s, list⟩ : Binding σ)] c).2.1 = bindings at steps
  cases steps with
  | cons first later =>
    cases later
    exact first

/-- What recording a reply does to a binding. Only a reply that describes types changes them. -/
inductive Binding.Updates (b : Binding σ) : (described : Option (List Oid)) → Binding σ → Prop
  | nothing : Updates b none b
  | prepared (types : Option (List Oid)) :
      Updates b none { b with statement := Descriptor.setPrepared types b.statement }
  | types (types : List Oid) :
      Updates b (some types) ⟨Descriptor.setTypes types b.statement, b.parameters.resolve types⟩
  | fields (fields : List Field) :
      Updates b none { b with statement := Descriptor.setFields fields b.statement }

theorem updates_of_record {b b' : Binding σ} {awaited : Awaited} {reply : BackendMessage}
    (recorded : b.record awaited reply = .ok b') : b.Updates reply.described? b' := by
  unfold Binding.record at recorded
  split at recorded
  case h_1 =>
    cases recorded
    exact .prepared none
  case h_2 =>
    cases recorded
    exact .prepared _
  case h_3 count body =>
    cases decoded : decodeOids count body with
    | error e =>
      rw [decoded] at recorded
      cases recorded
    | ok types =>
      have described : (BackendMessage.parameterDescription count body).described? = some types := by
        rw [BackendMessage.described?, decoded]
        rfl
      rw [decoded] at recorded
      cases recorded
      rw [described]
      exact .types types
  case h_4 count body =>
    cases decoded : decodeFields count body with
    | error e =>
      rw [decoded] at recorded
      cases recorded
    | ok fields =>
      rw [decoded] at recorded
      cases recorded
      exact .fields fields
  case h_5 =>
    cases recorded
    exact .fields []
  case h_6 =>
    cases recorded
    exact .nothing
  case h_7 => cases recorded

def Binding.reports : (b : Binding σ) → List Awaited → Connection → List (List Oid)
  | _, [], _ => []
  | b, awaited :: later, c =>
    match c.receiveReply with
    | (.error _, _) => []
    | (.ok reply, c) =>
      match b.record awaited reply with
      | .error _ => []
      | .ok b => reply.described?.toList ++ b.reports later c

theorem Binding.await_keeps {motive : Binding σ → List (List Oid) → Prop}
    (step : ∀ {b b' : Binding σ} {described : Option (List Oid)} {reports : List (List Oid)},
      b.Updates described b' → motive b reports → motive b' (reports ++ described.toList))
    (awaited : List Awaited) {b : Binding σ} (reports : List (List Oid)) (start : motive b reports) (c : Connection) :
    motive (b.await awaited c).2.1 (reports ++ b.reports awaited c) := by
  induction awaited generalizing b reports c with
  | nil => exact (List.append_nil reports).symm ▸ start
  | cons first later ih =>
    unfold Binding.await Binding.reports
    obtain ⟨received, d⟩ := c.receiveReply
    cases received with
    | error e => exact (List.append_nil reports).symm ▸ start
    | ok reply =>
      dsimp only
      cases recorded : b.record first reply with
      | error e => exact (List.append_nil reports).symm ▸ start
      | ok b' =>
        dsimp only
        rw [← List.append_assoc]
        exact ih _ (step (updates_of_record recorded) start) d

theorem Exchanged.keeps {b b' : Binding σ} (exchanged : Exchanged b b') {motive : Binding σ → Prop}
    (step : ∀ {b b' : Binding σ} {described : Option (List Oid)}, b.Updates described b' → motive b → motive b')
    (start : motive b) : motive b' := by
  cases exchanged with
  | unchanged => exact start
  | awaited c planned => exact Binding.await_keeps (motive := fun b _ => motive b) step _ [] start c

theorem Binding.Updates.bare [Tracked σ] {b b' : Binding σ} {described : Option (List Oid)}
    (updates : b.Updates described b') : Tracked.bare b'.statement = Tracked.bare b.statement := by
  cases updates with
  | nothing => rfl
  | prepared types => exact Tracked.bare_setPrepared _ _
  | types types => exact Tracked.bare_setTypes _ _
  | fields fields => exact Tracked.bare_setFields _ _

theorem Exchanged.bare [Tracked σ] {b b' : Binding σ} (exchanged : Exchanged b b') :
    Tracked.bare b'.statement = Tracked.bare b.statement :=
  exchanged.keeps (motive := fun b' => Tracked.bare b'.statement = Tracked.bare b.statement)
    (fun updates same => updates.bare.trans same) rfl

end

/-! ## Statements -/

inductive Statement.Reaches (s : Statement) : Statement → Prop
  | refl : Reaches s s
  | exchanged {b b' : Binding Statement} : Reaches s b.statement → Exchanged b b' → Reaches s b'.statement
  | close {t : Statement} : Reaches s t → Reaches s t.close.1

namespace BatchedStatement

def Operation.isCall : Operation → Bool
  | .queueRow | .addRow _ | .reset | .close => true
  | _ => false

inductive Reaches (s : BatchedStatement) : BatchedStatement → Prop
  | refl : Reaches s s
  | exchanged {b b' : Binding BatchedStatement} : Reaches s b.statement → Exchanged b b' → Reaches s b'.statement
  | call {t u : BatchedStatement} (operation : Operation) : Reaches s t → operation.isCall = true →
      t.attempt operation = .ok u → Reaches s u
  | take {t : BatchedStatement} : Reaches s t → Reaches s { t with pending := none }

theorem Changes.positive {s t : BatchedStatement} {operation : Operation} (changes : Changes s operation t)
    (positive : 0 < s.rows) : 0 < t.rows := by
  cases changes.change with
  | reset rows => exact rows ▸ Nat.one_pos
  | queued _ rows => exact rows ▸ s.rows.succ_pos
  | first _ _ rows => exact rows ▸ positive
  | added _ _ _ rows => exact rows ▸ s.rows.succ_pos
  | reported _ _ _ rows => exact rows ▸ positive

theorem Reaches.positive {s t : BatchedStatement} (reaches : s.Reaches t) (positive : 0 < s.rows) : 0 < t.rows := by
  induction reaches with
  | refl => exact positive
  | exchanged _ exchanged ih =>
    have rows := (eq_of_bare exchanged.bare).2.2.2.1
    exact rows ▸ ih
  | call _ _ _ done ih => exact (attempt_changes done).positive ih
  | take _ ih => exact ih

def Asks (s : BatchedStatement) (pipelines : List (List Request)) : Prop :=
  ∀ requests ∈ pipelines, ∀ r ∈ requests, ∃ b : Binding BatchedStatement, s.Reaches b.statement ∧ r.IsSentFor b

variable {s t u : BatchedStatement}

theorem Asks.append {first second : List (List Request)} (asks : s.Asks first) (later : s.Asks second) :
    s.Asks (first ++ second) := by
  intro requests sent
  rcases List.mem_append.1 sent with inside | inside
  · exact asks requests inside
  · exact later requests inside

theorem asks_nil : s.Asks [] := by
  intro requests sent
  cases sent

theorem Reaches.pipelines (reaches : s.Reaches t) (list : ParameterList) :
    s.Asks (ExtendedQuery.pipelines [⟨t, list⟩]) := by
  intro requests sent r member
  obtain ⟨b, inside, sentFor⟩ := isSentFor_of_pipelines sent member
  cases List.mem_singleton.1 inside
  exact ⟨⟨t, list⟩, reaches, sentFor⟩

theorem Reaches.reset (reaches : s.Reaches t) : s.Reaches t.reset := .call .reset reaches rfl rfl

theorem Reaches.exchangeOne (reaches : s.Reaches t) (list : ParameterList) (c : Connection) :
    s.Reaches (exchangeOne t list c).2.1.statement :=
  .exchanged (b := ⟨t, list⟩) reaches (exchangeOne_exchanged t list c)

theorem Reaches.flush (reaches : s.Reaches t) (c : Connection) : s.Reaches (Batch.flush t c).2.1 := by
  unfold Batch.flush
  cases t.pending with
  | none => exact reaches.reset
  | some queued => exact (reaches.take.exchangeOne queued c).reset

theorem Reaches.flushPipelines (reaches : s.Reaches t) : s.Asks (Batch.flushPipelines t) := by
  unfold Batch.flushPipelines
  cases t.pending with
  | none => exact asks_nil
  | some queued => exact reaches.take.pipelines queued

theorem Reaches.mergeRowPipelines (reaches : s.Reaches t) (row : Parameters) :
    s.Asks (Batch.mergeRowPipelines t row) := by
  unfold Batch.mergeRowPipelines
  cases row with
  | composite lists => exact asks_nil
  | single list =>
    dsimp only
    split
    · exact reaches.flushPipelines
    · exact asks_nil

theorem Reaches.mergeRow (reaches : s.Reaches t) (row : Parameters) (c : Connection) :
    s.Reaches (Batch.mergeRow t row c).2.1 := by
  unfold Batch.mergeRow
  cases row with
  | composite lists => exact reaches
  | single list =>
    dsimp only
    cases added : t.addRow list with
    | ok u => exact .call (.addRow list) reaches rfl added
    | error e =>
      cases e with
      | full rows =>
        have flushed := reaches.flush c
        generalize Batch.flush t c = result at flushed ⊢
        obtain ⟨outcome, u, d⟩ := result
        cases outcome with
        | error e => exact flushed
        | ok outcomes =>
          dsimp only
          cases again : u.addRow list with
          | error e => exact flushed
          | ok v => exact .call (.addRow list) flushed rfl again
      | arityMismatch expected found => exact reaches
      | notGrowable => exact reaches

theorem Reaches.mergeRows (rows : List Parameters) (reaches : s.Reaches t) (c : Connection)
    (done : List RowOutcome) : s.Reaches (Batch.mergeRows done t rows c).2.1 := by
  induction rows generalizing t c done with
  | nil => exact reaches.flush c
  | cons row later ih =>
    unfold Batch.mergeRows
    have merged := reaches.mergeRow row c
    generalize Batch.mergeRow t row c = result at merged ⊢
    obtain ⟨outcome, u, d⟩ := result
    cases outcome with
    | error e => exact merged
    | ok outcomes => exact ih merged d _

theorem Reaches.mergeRowsPipelines (rows : List Parameters) (reaches : s.Reaches t) (c : Connection) :
    s.Asks (Batch.mergeRowsPipelines t rows c) := by
  induction rows generalizing t c with
  | nil => exact reaches.flushPipelines
  | cons row later ih =>
    apply (reaches.mergeRowPipelines row).append
    have merged := reaches.mergeRow row c
    generalize Batch.mergeRow t row c = result at merged ⊢
    obtain ⟨outcome, u, d⟩ := result
    cases outcome with
    | error e => exact asks_nil
    | ok outcomes => exact ih merged d

end BatchedStatement

/-! ## Queries -/

theorem Statement.Reaches.trans {s t u : Statement} (first : s.Reaches t) (second : t.Reaches u) : s.Reaches u := by
  induction second with
  | refl => exact first
  | exchanged _ exchanged ih => exact .exchanged ih exchanged
  | close _ ih => exact .close ih

theorem BatchedStatement.Reaches.trans {s t u : BatchedStatement} (first : s.Reaches t) (second : t.Reaches u) :
    s.Reaches u := by
  induction second with
  | refl => exact first
  | exchanged _ exchanged ih => exact .exchanged ih exchanged
  | call operation _ call done ih => exact .call operation ih call done
  | take _ ih => exact .take ih

namespace Query

inductive Reaches : Query → Query → Prop
  | single {s t : Statement} : s.Reaches t → Reaches (.single s) (.single t)
  | batched {s t : BatchedStatement} : s.Reaches t → Reaches (.batched s) (.batched t)
  | composite {statements others : List Statement} : List.Forall₂ Statement.Reaches statements others →
      Reaches (.composite statements) (.composite others)

/-- The request is sent for what a statement of the query becomes. -/
inductive Asks : Query → Request → Prop
  | single {s : Statement} {b : Binding Statement} {r : Request} : s.Reaches b.statement → r.IsSentFor b →
      Asks (.single s) r
  | batched {s : BatchedStatement} {b : Binding BatchedStatement} {r : Request} : s.Reaches b.statement →
      r.IsSentFor b → Asks (.batched s) r
  | composite {statements : List Statement} {s : Statement} {b : Binding Statement} {r : Request} :
      s ∈ statements → s.Reaches b.statement → r.IsSentFor b → Asks (.composite statements) r

theorem Reaches.refl (query : Query) : query.Reaches query := by
  cases query with
  | single s => exact .single .refl
  | batched s => exact .batched .refl
  | composite statements =>
    apply Reaches.composite
    rw [List.forall₂_same]
    intro s _
    exact .refl

theorem Reaches.trans {first second third : Query} (early : first.Reaches second) (late : second.Reaches third) :
    first.Reaches third := by
  cases early with
  | single early =>
    cases late with
    | single late => exact .single (early.trans late)
  | batched early =>
    cases late with
    | batched late => exact .batched (early.trans late)
  | composite early =>
    cases late with
    | composite late =>
      exact .composite (forall₂_trans (fun _ _ _ first second => first.trans second) early late)

theorem Asks.of_reaches {query query' : Query} {r : Request} (reaches : query.Reaches query')
    (asks : query'.Asks r) : query.Asks r := by
  cases asks with
  | single later sentFor =>
    cases reaches with
    | single reaches => exact .single (reaches.trans later) sentFor
  | batched later sentFor =>
    cases reaches with
    | batched reaches => exact .batched (reaches.trans later) sentFor
  | composite member later sentFor =>
    cases reaches with
    | composite reaches =>
      obtain ⟨s, inside, reaches⟩ := exists_of_mem_right reaches member
      exact .composite inside (reaches.trans later) sentFor

theorem execute_reaches (query : Query) (parameters : Parameters) (c : Connection) :
    query.Reaches (query.execute parameters c).query := by
  cases pairing query parameters with
  | single s list => exact .single (.exchanged (b := ⟨s, list⟩) .refl (exchangeOne_exchanged s list c))
  | @batched s list length =>
    rw [execute_batched length]
    exact .batched (BatchedStatement.Reaches.refl.reset.exchangeOne list c)
  | @composite statements lists length =>
    have steps := exchange_exchanged (List.zipWith Binding.mk statements lists) c
    rw [execute_composite length]
    apply Reaches.composite
    rw [List.forall₂_map_right_iff]
    nth_rewrite 1 [← map_statement_zipWith length]
    rw [List.forall₂_map_left_iff]
    exact steps.imp fun _ _ exchanged => Statement.Reaches.exchanged .refl exchanged
  | refused e none same =>
    rw [same]
    exact .refl query

theorem pipelines_asks (query : Query) (parameters : Parameters) :
    ∀ requests ∈ query.pipelines parameters, ∀ r ∈ requests, query.Asks r := by
  intro requests sent r asked
  cases pairing query parameters with
  | single s list =>
    obtain ⟨b, inside, sentFor⟩ := isSentFor_of_pipelines sent asked
    cases List.mem_singleton.1 inside
    exact .single .refl sentFor
  | @batched s list length =>
    rw [pipelines_batched length] at sent
    obtain ⟨b, reaches, sentFor⟩ := BatchedStatement.Reaches.refl.reset.pipelines list requests sent r asked
    exact .batched reaches sentFor
  | composite length =>
    rw [pipelines_composite length] at sent
    obtain ⟨b, inside, sentFor⟩ := isSentFor_of_pipelines sent asked
    exact .composite (mem_statements length inside) .refl sentFor
  | refused e none =>
    rw [none] at sent
    cases sent

theorem Reaches.executeRows {query query' : Query} (reaches : query.Reaches query') (rows : List Parameters)
    (c : Connection) (done : List RowOutcome) : query.Reaches (Batch.executeRows done query' rows c).2.1 := by
  induction rows generalizing query' c done with
  | nil => exact reaches
  | cons row later ih =>
    unfold Batch.executeRows
    have executed := reaches.trans (execute_reaches query' row c)
    dsimp only
    cases (query'.execute row c).outcome with
    | error e => exact executed
    | ok affected => exact ih executed _ _

theorem Reaches.executeRowsPipelines {query query' : Query} (reaches : query.Reaches query')
    (rows : List Parameters) (c : Connection) :
    ∀ requests ∈ Batch.executeRowsPipelines query' rows c, ∀ r ∈ requests, query.Asks r := by
  induction rows generalizing query' c with
  | nil =>
    intro requests sent
    cases sent
  | cons row later ih =>
    intro requests sent
    have executed := reaches.trans (execute_reaches query' row c)
    rcases List.mem_append.1 sent with inside | inside
    · intro r asked
      exact .of_reaches reaches (pipelines_asks query' row requests inside r asked)
    · cases outcome : (query'.execute row c).outcome with
      | error e =>
        rw [outcome] at inside
        cases inside
      | ok affected =>
        rw [outcome] at inside
        exact ih executed _ requests inside

end Query

section

variable {query query' : Query} {pipelines : List (List Request)} {c d : Connection}

theorem Call.reaches (call : Call c query pipelines d query') : query.Reaches query' := by
  cases call with
  | execute parameters => exact query.execute_reaches parameters c
  | batch rows =>
    cases query with
    | batched s => exact .batched (BatchedStatement.Reaches.refl.mergeRows rows c []).reset
    | single s => exact (Query.Reaches.refl _).executeRows rows c []
    | composite statements => exact (Query.Reaches.refl _).executeRows rows c []

theorem Call.asks (call : Call c query pipelines d query') :
    ∀ requests ∈ pipelines, ∀ r ∈ requests, query.Asks r := by
  cases call with
  | execute parameters => exact query.pipelines_asks parameters
  | batch rows =>
    cases query with
    | batched s =>
      intro requests sent r asked
      obtain ⟨b, reaches, sentFor⟩ := BatchedStatement.Reaches.refl.mergeRowsPipelines rows c requests sent r asked
      exact .batched reaches sentFor
    | single s => exact (Query.Reaches.refl _).executeRowsPipelines rows c
    | composite statements => exact (Query.Reaches.refl _).executeRowsPipelines rows c

end

end ExtendedQuery
