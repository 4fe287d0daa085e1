import ExtendedQuery.Proofs.Batch.Fitting
import ExtendedQuery.Proofs.Batch.Returning
import ExtendedQuery.Proofs.Session.Calls

/-!
# Parameters that are refused

A query is executed only with valid parameters: there is a list for each of its statements, with a
parameter for every placeholder, all of them bound (`Query.Refuses`). Otherwise nothing is sent, nothing is
read, and nothing is recorded. Main statement: `Query.execute_validated`, an execution is refused for its
parameters exactly if they are not valid, whichever statement of the query they belong to.
-/

namespace ExtendedQuery

open Wire

def Error.IsReceived : Error → Prop
  | .protocol _ | .transport .endOfInput | .server _ => True
  | _ => False

/-- The outcome is no error, or one that only reading replies can end in. -/
def Received {α : Type} (outcome : Except Error α) : Prop := ∀ e, outcome = .error e → e.IsReceived

@[simp] theorem received_ok {α : Type} (a : α) : Received (.ok a : Except Error α) := nofun

@[simp] theorem received_error {α : Type} {e : Error} : Received (.error e : Except Error α) ↔ e.IsReceived := by
  constructor
  · intro received
    exact received e rfl
  · intro received e' same
    cases same
    exact received

theorem Received.map {α β : Type} {outcome : Except Error α} (received : Received outcome) (f : α → β) :
    Received (outcome.map f) := by
  cases outcome with
  | ok a => exact received_ok (f a)
  | error e => exact received_error.2 (received e rfl)

theorem Received.mapError_protocol {α : Type} (outcome : Except ProtocolError α) :
    Received (outcome.mapError .protocol) := by
  cases outcome with
  | ok a => exact received_ok a
  | error e => exact received_error.2 trivial

theorem Received.of_eq {α β : Type} {result : Except Error α × β} {outcome : Except Error α} {b : β}
    (received : Received result.1) (same : result = (outcome, b)) : Received outcome := by
  rwa [same] at received

namespace Connection

theorem readFrame_received (c : Connection) : Received c.readFrame.1 := by
  unfold readFrame
  split
  · exact received_error.2 trivial
  · dsimp only
    split
    · exact received_error.2 trivial
    · split
      · exact received_error.2 trivial
      · exact received_ok _

theorem receiveExpected_received (expected : Option BackendKind) (c : Connection) :
    Received (c.receiveExpected expected).1 := by
  fun_induction receiveExpected expected c with
  | case1 c e d read =>
    have failed := c.readFrame_received.of_eq read
    exact received_error.2 (received_error.1 failed)
  | case2 c d body read ih => exact ih
  | case3 c body d name value _ read _ ih => exact ih
  | case4 c body d _ _ _ read _ ih => exact ih
  | case5 => exact received_error.2 trivial
  | case6 c typeByte body d read => exact .mapError_protocol _

theorem receiveReply_received (c : Connection) : Received c.receiveReply.1 := by
  have received := c.receiveExpected_received none
  unfold receiveReply receive
  generalize c.receiveExpected none = result at received ⊢
  split
  · exact received_error.2 trivial
  · exact received

theorem awaitCompletion_received (rows : Nat) (c : Connection) : Received (c.awaitCompletion rows).1 := by
  fun_induction awaitCompletion rows c with
  | case1 rows c e d read =>
    have failed := c.receiveReply_received.of_eq read
    exact received_error.2 (received_error.1 failed)
  | case2 rows c d _ _ read ih => exact ih
  | case3 | case4 | case5 => exact received_ok _
  | case6 => exact received_error.2 trivial

theorem awaitReady_received (c : Connection) : Received c.awaitReady.1 := by
  have received := c.receiveReply_received
  unfold awaitReady
  generalize c.receiveReply = result at received ⊢
  split
  · exact received_error.2 (received_error.1 received)
  · exact received_ok ()
  · exact received_error.2 trivial

theorem drain_received (c : Connection) : Received c.drain.1 := by
  fun_induction drain c with
  | case1 c e d read =>
    have failed := (c.receiveExpected_received none).of_eq read
    exact received_error.2 (received_error.1 failed)
  | case2 => exact received_ok ()
  | case3 c message d _ read ih => exact ih

theorem resynchronise_received {α : Type} {outcome : Except Error α} (received : Received outcome)
    (c : Connection) : Received (c.resynchronise outcome).1 := by
  unfold resynchronise
  split
  · have drained := c.drain_received
    generalize c.drain = result at drained ⊢
    split
    · exact received
    · exact received_error.2 (received_error.1 drained)
  · exact received

end Connection

section

variable {σ : Type} [Descriptor σ]

theorem Binding.await_received (b : Binding σ) (awaited : List Awaited) (c : Connection) :
    Received (b.await awaited c).1 := by
  induction awaited generalizing b c with
  | nil => exact received_ok ()
  | cons first later ih =>
    have received := c.receiveReply_received
    unfold await
    generalize c.receiveReply = result at received ⊢
    split
    · exact received_error.2 (received_error.1 received)
    · split
      · exact received_error.2 trivial
      · exact ih _ _

theorem awaitAll_received (planned : List (Binding σ × Plan)) (c : Connection) :
    Received (awaitAll planned c).1 := by
  induction planned generalizing c with
  | nil => exact c.awaitReady_received.map _
  | cons p later ih =>
    obtain ⟨b, plan⟩ := p
    unfold awaitAll
    split
    · rename_i failed
      have received := (b.await_received plan.awaited c).of_eq failed
      exact received_error.2 (received_error.1 received)
    · rename_i d _
      split
      · rename_i failed
        have received := (d.awaitCompletion_received 0).of_eq failed
        exact received_error.2 (received_error.1 received)
      · exact (ih _).map _

end

structure ParameterList.Fills (list : ParameterList) (count : Nat) : Prop where
  few : count ≤ maxParameters
  length : list.length = count
  bound : ∀ p ∈ list, p.isBound = true
  short : list.Short

theorem mapM_isOk_iff {α β ε : Type} {f : α → Except ε β} {as : List α} :
    (∃ bs, as.mapM f = .ok bs) ↔ ∀ a ∈ as, ∃ b, f a = .ok b := by
  induction as with
  | nil => simp [pure, Except.pure]
  | cons a as ih =>
    rw [List.mapM_cons, List.forall_mem_cons, ← ih]
    cases first : f a with
    | error e => simp [bind, Except.bind]
    | ok b =>
      cases later : as.mapM f with
      | error e => simp [bind, Except.bind]
      | ok bs => simp [bind, Except.bind, pure, Except.pure]

theorem wireValue_isOk_iff {p : Parameter} {index : Nat} :
    (∃ value, p.wireValue index = .ok value) ↔
      p.isBound = true ∧ ∀ bytes, p.bytes? = some bytes → bytes.length ≤ Parameter.maxValueLength := by
  constructor
  · intro ⟨value, wire⟩
    unfold Parameter.wireValue at wire
    unfold Parameter.isBound Parameter.bytes?
    cases slot : p.slot with
    | unbound =>
      rw [slot] at wire
      cases wire
    | null => simp
    | value v =>
      rw [slot] at wire
      dsimp only at wire
      split at wire
      · cases wire
      · rename_i short
        simpa using short
  · intro ⟨bound, short⟩
    exact ⟨p.bytes?, wireValue_eq bound short index⟩

theorem wireValues_isOk_iff {list : ParameterList} :
    (∃ values, list.wireValues = .ok values) ↔ (∀ p ∈ list, p.isBound = true) ∧ list.Short := by
  constructor
  · intro wire
    have each : ∀ p ∈ list, p.isBound = true ∧
        ∀ bytes, p.bytes? = some bytes → bytes.length ≤ Parameter.maxValueLength := by
      intro p member
      obtain ⟨i, below, rfl⟩ := List.mem_iff_getElem.1 member
      apply wireValue_isOk_iff.1
      apply mapM_isOk_iff.1 wire (list[i], 1 + i)
      exact List.mk_add_mem_zipIdx_iff_getElem?.2 (List.getElem?_eq_getElem below)
    exact ⟨fun p member => (each p member).1, fun p member => (each p member).2⟩
  · intro ⟨bound, short⟩
    exact ⟨_, wireValues_eq bound short⟩

section

variable {σ : Type} [Descriptor σ]

def Binding.Filled (b : Binding σ) : Prop :=
  b.parameters.Fills (Descriptor.fragments b.statement).placeholderCount

theorem plan_isOk_iff {b : Binding σ} : (∃ plan, b.plan = .ok plan) ↔ b.Filled := by
  constructor
  · intro ⟨plan, ok⟩
    have planned := plan_ok ok
    obtain ⟨bound, short⟩ := wireValues_isOk_iff.1 ⟨plan.values, planned.values⟩
    exact ⟨planned.few, planned.count, bound, short⟩
  · intro filled
    have few : b.parameters.length ≤ maxParameters := filled.length ▸ filled.few
    exact plan_isOk filled.length few (checkAllSet_ok.2 filled.bound) (wireValues_eq filled.bound filled.short)

/-- An exchange ends in one of four ways: a statement is refused, the messages do not fit into the protocol,
the write fails, or replies are read. Only in the last way is anything changed. -/
inductive ExchangeEnds (bindings : List (Binding σ)) (c : Connection) :
    Except Error (List Nat) × List (Binding σ) × Connection → Prop
  | refused {b : Binding σ} {e : BindError} : b ∈ bindings → ¬ b.Filled →
      ExchangeEnds bindings c (.error (.bind e), bindings, c)
  | oversized : (∀ b ∈ bindings, b.Filled) → ExchangeEnds bindings c (.error .oversized, bindings, c)
  | broken : (∀ b ∈ bindings, b.Filled) → c.writable = false →
      ExchangeEnds bindings c (.error (.transport .brokenPipe), bindings, c)
  | replied {outcome : Except Error (List Nat)} {bindings' : List (Binding σ)} {d : Connection} :
      (∀ b ∈ bindings, b.Filled) → c.writable = true → Received outcome →
      ExchangeEnds bindings c (outcome, bindings', d)

theorem exchange_ends (bindings : List (Binding σ)) (c : Connection) :
    ExchangeEnds bindings c (exchange bindings c) := by
  have planned : (∃ plans, bindings.mapM Binding.plan = .ok plans) ↔ ∀ b ∈ bindings, b.Filled := by
    simp only [mapM_isOk_iff, plan_isOk_iff]
  unfold exchange
  cases plansOk : bindings.mapM Binding.plan with
  | error e =>
    simp only [plansOk, reduceCtorEq, exists_false, false_iff, not_forall] at planned
    obtain ⟨b, member, unfilled⟩ := planned
    exact .refused member unfilled
  | ok plans =>
    have filled := planned.1 ⟨plans, plansOk⟩
    dsimp only
    split
    · exact .oversized filled
    · rename_i bytes written
      cases writable : c.writable with
      | false =>
        rw [Connection.send, writable, if_neg Bool.false_ne_true]
        exact .broken filled writable
      | true =>
        rw [Connection.send, if_pos writable]
        have received := awaitAll_received (bindings.zip plans) { c with sent := c.sent ++ [bytes] }
        exact .replied filled writable (Connection.resynchronise_received received _)

structure Untouched (bindings : List (Binding σ)) (c : Connection)
    (result : Except Error (List Nat) × List (Binding σ) × Connection) : Prop where
  failed : ∃ e, result.1 = .error e
  bindings : result.2.1 = bindings
  connection : result.2.2 = c

theorem ExchangeEnds.untouched {bindings : List (Binding σ)} {c : Connection}
    {result : Except Error (List Nat) × List (Binding σ) × Connection} (ends : ExchangeEnds bindings c result)
    (unsent : (∃ e, result.1 = .error (.bind e)) ∨ result.1 = .error (.transport .brokenPipe) ∨
      c.writable = false) : Untouched bindings c result := by
  cases ends with
  | refused _ _ => exact ⟨⟨_, rfl⟩, rfl, rfl⟩
  | oversized _ => exact ⟨⟨_, rfl⟩, rfl, rfl⟩
  | broken _ _ => exact ⟨⟨_, rfl⟩, rfl, rfl⟩
  | replied _ writable received =>
    rcases unsent with ⟨e, refused⟩ | broken | unwritable
    · exact (received _ refused).elim
    · exact (received _ broken).elim
    · simp [unwritable] at writable

theorem ExchangeEnds.refused_iff {bindings : List (Binding σ)} {c : Connection}
    {result : Except Error (List Nat) × List (Binding σ) × Connection} (ends : ExchangeEnds bindings c result) :
    (∃ e, result.1 = .error (.bind e)) ↔ ∃ b ∈ bindings, ¬ b.Filled := by
  have none_of_all (all : ∀ b ∈ bindings, b.Filled) : ¬ ∃ b ∈ bindings, ¬ b.Filled := by
    simpa using all
  cases ends with
  | refused member unfilled => simpa using ⟨_, member, unfilled⟩
  | oversized filled => simpa using filled
  | broken filled => simpa using filled
  | replied filled _ received =>
    simp only [none_of_all filled, iff_false]
    intro ⟨e, failed⟩
    exact received _ failed

end

namespace Query

def Takes : Query → Parameters → Prop
  | .single _, .single _ | .batched _, .single _ | .composite _, .composite _ => True
  | _, _ => False

def placeholders : Query → List Nat
  | .single s => [s.fragments.placeholderCount]
  | .batched s => [s.arity]
  | .composite statements => statements.map (·.fragments.placeholderCount)

end Query

def Parameters.lists : Parameters → List ParameterList
  | .single list => [list]
  | .composite lists => lists

namespace Query

/-- What makes parameters invalid for a query. -/
inductive Refuses (query : Query) (parameters : Parameters) : Prop
  | variant : ¬ query.Takes parameters → Refuses query parameters
  | lists : query.placeholders.length ≠ parameters.lists.length → Refuses query parameters
  | many {count : Nat} : count ∈ query.placeholders → maxParameters < count → Refuses query parameters
  | length {count : Nat} {list : ParameterList} : (count, list) ∈ query.placeholders.zip parameters.lists →
      list.length ≠ count → Refuses query parameters
  | unbound {list : ParameterList} {p : Parameter} : list ∈ parameters.lists → p ∈ list →
      p.isBound = false → Refuses query parameters

variable {query : Query} {parameters : Parameters}

theorem refuses_iff (takes : query.Takes parameters)
    (same : query.placeholders.length = parameters.lists.length) :
    (query.Refuses parameters ∨ ∃ list ∈ parameters.lists, ¬ list.Short) ↔
      ∃ entry ∈ query.placeholders.zip parameters.lists, ¬ entry.2.Fills entry.1 := by
  have of_list {list : ParameterList} (member : list ∈ parameters.lists) :
      ∃ count, (count, list) ∈ query.placeholders.zip parameters.lists := by
    obtain ⟨i, below, rfl⟩ := List.mem_iff_getElem.1 member
    exact ⟨_, List.getElem_zip (i := i) ▸ List.getElem_mem (by rw [List.length_zip]; omega)⟩
  have of_count {count : Nat} (member : count ∈ query.placeholders) :
      ∃ list, (count, list) ∈ query.placeholders.zip parameters.lists := by
    obtain ⟨i, below, rfl⟩ := List.mem_iff_getElem.1 member
    exact ⟨_, List.getElem_zip (i := i) ▸ List.getElem_mem (by rw [List.length_zip]; omega)⟩
  constructor
  · intro invalid
    rcases invalid with refuses | ⟨list, member, long⟩
    · cases refuses with
      | variant other => exact absurd takes other
      | lists different => exact absurd same different
      | many member many =>
        obtain ⟨list, entry⟩ := of_count member
        exact ⟨_, entry, fun fills => absurd fills.few (Nat.not_le.2 many)⟩
      | length entry different => exact ⟨_, entry, fun fills => different fills.length⟩
      | unbound member inside unbound =>
        obtain ⟨count, entry⟩ := of_list member
        exact ⟨_, entry, fun fills => by simp [fills.bound _ inside] at unbound⟩
    · obtain ⟨count, entry⟩ := of_list member
      exact ⟨_, entry, fun fills => long fills.short⟩
  · intro ⟨⟨count, list⟩, entry, unfilled⟩
    obtain ⟨counted, listed⟩ := List.of_mem_zip entry
    by_contra valid
    simp only [not_or, not_exists, not_and, not_not] at valid
    obtain ⟨accepts, short⟩ := valid
    refine unfilled ⟨?_, ?_, ?_, short list listed⟩
    · exact Nat.not_lt.1 fun many => accepts (.many counted many)
    · exact not_not.1 fun different => accepts (.length entry different)
    · intro p inside
      exact Bool.of_not_eq_false fun unbound => accepts (.unbound listed inside unbound)

end Query

def BatchedStatement.unqueued (s : BatchedStatement) : BatchedStatement :=
  { s with rows := 1, types := if s.rows = 1 then s.types else s.template, pending := none }

theorem BatchedStatement.reset_eq (s : BatchedStatement) : s.reset = s.unqueued := by
  unfold reset unqueued
  dsimp only
  split
  · rename_i single
    rw [single]
  · simp [reshape]

/-- The query where nothing is sent for it: an insert that has parameters for a row is for a single row
then, and has lost its queued rows. -/
def Query.unsent (query : Query) (parameters : Parameters) : Query :=
  match query, parameters with
  | .batched s, .single list => if list.length = s.arity then .batched s.unqueued else query
  | _, _ => query

theorem map_parameters_zipWith {statements : List Statement} {lists : List ParameterList}
    (length : statements.length = lists.length) :
    (List.zipWith Binding.mk statements lists).map (·.parameters) = lists := by
  rw [List.map_zipWith, ← List.map_uncurry_zip_eq_zipWith]
  exact List.map_snd_zip length.ge

/-- The execution of a query checks its parameters before it does anything else. -/
structure Execution.Validates (e : Execution) (query : Query) (parameters : Parameters) (c : Connection) :
    Prop where
  refused_iff : (∃ error, e.outcome = .error (.bind error)) ↔
    query.Refuses parameters ∨ ∃ list ∈ parameters.lists, ¬ list.Short
  untouched : (∃ error, e.outcome = .error (.bind error)) ∨ e.outcome = .error (.transport .brokenPipe) ∨
      c.writable = false →
    (∃ error, e.outcome = .error error) ∧ e.connection = c ∧ e.parameters = parameters ∧
      e.query = query.unsent parameters

theorem validates_of_exchange {σ : Type} [Descriptor σ] (bindings : List (Binding σ)) {query : Query}
    {parameters : Parameters} {c : Connection} {e : Execution} (takes : query.Takes parameters)
    (counts : bindings.map (fun b => (Descriptor.fragments b.statement).placeholderCount) = query.placeholders)
    (lists : bindings.map (·.parameters) = parameters.lists) (outcome : e.outcome = (exchange bindings c).1)
    (connection : e.connection = (exchange bindings c).2.2)
    (kept : (exchange bindings c).2.1 = bindings →
      e.parameters = parameters ∧ e.query = query.unsent parameters) :
    e.Validates query parameters c := by
  have ends := exchange_ends bindings c
  constructor
  · have same : query.placeholders.length = parameters.lists.length := by
      rw [← counts, ← lists, List.length_map, List.length_map]
    rw [outcome, ends.refused_iff, Query.refuses_iff takes same, ← counts, ← lists, List.zip_map']
    simp [Binding.Filled]
  · rw [outcome, connection]
    intro unsent
    have untouched := ends.untouched unsent
    exact ⟨untouched.failed, untouched.connection, kept untouched.bindings⟩

theorem validates_of_refused {query : Query} {parameters : Parameters} (refuses : query.Refuses parameters)
    (unsent : query.unsent parameters = query) (error : BindError) (c : Connection) :
    Execution.Validates ⟨.error (.bind error), query, parameters, c⟩ query parameters c := by
  constructor
  · exact ⟨fun _ => .inl refuses, fun _ => ⟨error, rfl⟩⟩
  · intro _
    exact ⟨⟨_, rfl⟩, rfl, rfl, unsent.symm⟩

/-- An execution is refused for its parameters exactly if they are not valid. Then, and if the write fails,
nothing was sent or read, and the parameters and what is known of the statements are as before. -/
theorem Query.execute_validated (query : Query) (parameters : Parameters) (c : Connection) :
    (query.execute parameters c).Validates query parameters c := by
  cases query with
  | single s =>
    cases parameters with
    | single list =>
      have takes : (single s).Takes (.single list) := trivial
      apply validates_of_exchange [⟨s, list⟩] takes rfl rfl rfl rfl
      intro kept
      simp [execute, exchangeOne, kept, unsent]
    | composite lists => exact validates_of_refused (.variant id) rfl _ c
  | batched s =>
    cases parameters with
    | single list =>
      by_cases arity : list.length = s.arity
      · have fragments : Descriptor.fragments s.reset = s.base := by
          rw [s.reset_eq]
          exact s.base.grow_one
        have takes : (batched s).Takes (.single list) := trivial
        have counts : [(Descriptor.fragments s.reset).placeholderCount] = (batched s).placeholders := by
          rw [fragments]
          rfl
        rw [execute_batched arity]
        apply validates_of_exchange [⟨s.reset, list⟩] takes counts rfl rfl rfl
        intro kept
        rw [exchangeOne]
        dsimp only
        rw [kept, unsent, if_pos arity, ← s.reset_eq]
        exact ⟨rfl, rfl⟩
      · have executed : (Query.batched s).execute (.single list) c =
            ⟨.error (.bind (.indexOutOfRange list.length s.arity)), .batched s, .single list, c⟩ :=
          if_pos arity
        have refuses : (batched s).Refuses (.single list) := .length (List.mem_singleton.2 rfl) arity
        rw [executed]
        exact validates_of_refused refuses (if_neg arity) _ c
    | composite lists => exact validates_of_refused (.variant id) rfl _ c
  | composite statements =>
    cases parameters with
    | single list => exact validates_of_refused (.variant id) rfl _ c
    | composite lists =>
      by_cases same : statements.length = lists.length
      · have statement := map_statement_zipWith same
        have parameters := map_parameters_zipWith same
        have takes : (composite statements).Takes (.composite lists) := trivial
        have counts : (List.zipWith Binding.mk statements lists).map
            (fun b => (Descriptor.fragments b.statement).placeholderCount) = (composite statements).placeholders := by
          conv_rhs => rw [placeholders, ← statement, List.map_map]
          rfl
        rw [execute_composite same]
        apply validates_of_exchange _ takes counts parameters rfl rfl
        intro kept
        dsimp only
        rw [kept, statement, parameters]
        exact ⟨rfl, rfl⟩
      · have executed : (Query.composite statements).execute (.composite lists) c =
            ⟨.error (.bind .incompatible), .composite statements, .composite lists, c⟩ :=
          if_pos same
        rw [executed]
        apply validates_of_refused _ rfl
        exact .lists (by simpa [placeholders, Parameters.lists] using same)

def selectPair : Query :=
  .composite [.ofFragments ⟨"SELECT ".toList, [[]]⟩ (.numbered 0),
    .ofFragments ⟨"SELECT ".toList, [[]]⟩ (.numbered 1)]

def firstBound : Parameters := .composite [[Parameter.unbound.bind (.text "1") Oid.int4], [.unbound]]

theorem Query.execute_validated_second :
    (∃ error, (selectPair.execute firstBound (.new .default)).outcome = .error (.bind error)) ∧
      (selectPair.execute firstBound (.new .default)).connection = .new .default ∧
      (selectPair.execute firstBound (.new .default)).query = selectPair := by
  have validates := execute_validated selectPair firstBound (.new .default)
  have second : [Parameter.unbound] ∈ firstBound.lists := by simp [firstBound, Parameters.lists]
  have refuses : selectPair.Refuses firstBound := .unbound second (List.mem_singleton.2 rfl) rfl
  have refused := validates.refused_iff.2 (.inl refuses)
  obtain ⟨-, connection, -, query⟩ := validates.untouched (.inl refused)
  exact ⟨refused, connection, query⟩

end ExtendedQuery
