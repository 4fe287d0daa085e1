import ExtendedQuery.Proofs.Pipeline.Typed
import ExtendedQuery.Proofs.Session.Validated

/-!
# Executions that bind and execute

A steady statement that could be sent with its parameters is sent again with a bind and an execution and nothing
else (`Binding.Steady.rebinds`). Whatever is received then, nothing changes in the statements and the parameters,
so that the next execution is the same one (`exchange_rebinds`, `Query.Rebinds.executes`).
-/

namespace ExtendedQuery

open Wire FrontendMessage Connection

def Parameter.untyped (p : Parameter) : Parameter := { p with oid := Oid.unspecified }

namespace ParameterList

variable (list : ParameterList)

def untyped : ParameterList := list.map Parameter.untyped

theorem untyped_resolve (found : List Oid) : (list.resolve found).untyped = list.untyped := by
  induction list generalizing found with
  | nil => simp [resolve, untyped]
  | cons p list ih =>
    cases found with
    | nil => rfl
    | cons oid found => exact congrArg (p.untyped :: ·) (ih found)

theorem formats_untyped : list.untyped.formats = list.formats := List.map_map

theorem length_untyped : list.untyped.length = list.length := List.length_map _

theorem wireValues_untyped : list.untyped.wireValues = list.wireValues := by
  unfold wireValues untyped
  generalize 1 = start
  induction list generalizing start with
  | nil => rfl
  | cons p list ih =>
    rw [List.map_cons, List.zipIdx_cons, List.zipIdx_cons, List.mapM_cons, List.mapM_cons, ih]
    rfl

end ParameterList

section

variable {σ : Type} [Descriptor σ] {b b' : Binding σ} {plan : Plan} {messages : List FrontendMessage}

structure Binding.Rebinds (b : Binding σ) (plan : Plan) (bind : Bind) : Prop where
  planned : b.plan = .ok plan
  awaited : plan.awaited = [.bound]
  messages : b.messages? plan = some [.bind bind, .execute "" 0]
  statement : bind.statement = (Descriptor.name b.statement).text
  framed : (frame? (.bind bind)).isSome

theorem messages?_bind (made : b.messages? plan = some messages) :
    ∃ bind, Bind.ofValues? "" (Descriptor.name b.statement).text plan.formats plan.values [] = some bind ∧
      .bind bind ∈ messages := by
  simp only [Binding.messages?, Option.bind_eq_bind, Option.pure_def, Option.bind_eq_some_iff,
    Option.some.injEq] at made
  obtain ⟨parse, -, bind, isBind, rfl⟩ := made
  exact ⟨bind, isBind, by simp⟩

theorem statement_of_ofValues? {portal statement : String} {formats results : List Format}
    {values : List (Option Bytes)} {bind : Bind}
    (isBind : Bind.ofValues? portal statement formats values results = some bind) : bind.statement = statement := by
  simp only [Bind.ofValues?, Option.bind_eq_bind, Option.pure_def, Option.bind_eq_some_iff,
    Option.some.injEq] at isBind
  obtain ⟨_, -, _, -, _, -, rfl⟩ := isBind
  rfl

theorem IsPlanOf.rebinds (planned : IsPlanOf b plan) (ok : b.plan = .ok plan) (steady : b.Steady) {bind : Bind}
    (isBind : Bind.ofValues? "" (Descriptor.name b.statement).text plan.formats plan.values [] = some bind)
    (framed : (frame? (.bind bind)).isSome) : b.Rebinds plan bind := by
  have parses : plan.parse = false := by rw [planned.parse, steady.prepared, Bool.not_true]
  have closes : plan.close = false := by rw [planned.close, parses, Bool.false_and]
  have describes : plan.describe = false := by
    rw [planned.describe, closes, steady.described, Bool.not_true, Bool.or_false]
  have few : plan.types.length ≤ maxParameters := by
    rw [planned.types, Binding.types, List.length_zipWith, ParameterList.oids, List.length_map, planned.count]
    exact (Nat.min_le_left _ _).trans planned.few
  obtain ⟨count, counted, -⟩ := count16?_eq few
  constructor
  · exact ok
  · rw [Plan.awaited, closes, parses, describes]
    rfl
  · simp only [Binding.messages?, Parse.ofTypes?, counted, isBind, closes, parses, describes]
    rfl
  · exact statement_of_ofValues? isBind
  · exact framed

end

section

variable {σ : Type} [Descriptor σ] [Tracked σ] {b b' : Binding σ} {plan : Plan} {messages : List FrontendMessage}

def Binding.identity (b : Binding σ) : σ × ParameterList := (Tracked.bare b.statement, b.parameters.untyped)

theorem identity_noted (plan : Plan) (b : Binding σ) (reply : BackendMessage) :
    (b.noted plan reply).identity = b.identity := by
  have parameters : (b.noted plan reply).parameters.untyped = b.parameters.untyped := by
    unfold Binding.noted
    split
    · rfl
    · rfl
    · split
      · exact b.parameters.untyped_resolve _
      · rfl
    · split <;> rfl
    · rfl
    · rfl
  rw [Binding.identity, bare_noted, parameters, Binding.identity]

theorem length_of_identity (same : b'.identity = b.identity) : b'.parameters.length = b.parameters.length := by
  rw [← ParameterList.length_untyped, ← ParameterList.length_untyped b.parameters]
  exact congrArg List.length (Prod.mk.inj same).2

theorem Binding.Steady.rebinds (steady : b'.Steady) (same : b'.identity = b.identity) (ok : b.plan = .ok plan)
    (made : b.messages? plan = some messages) (framed : ∀ m ∈ messages, m.frame?.isSome) :
    ∃ plan' bind, b'.Rebinds plan' bind := by
  obtain ⟨bare, untyped⟩ := Prod.mk.inj same
  obtain ⟨name, -, fragments⟩ := Tracked.eq_of_bare bare
  have planned := plan_ok ok
  have wire : b'.parameters.wireValues = .ok plan.values := by
    rw [← ParameterList.wireValues_untyped, untyped, ParameterList.wireValues_untyped]
    exact planned.values
  have formats : b'.parameters.formats = b.parameters.formats := by
    rw [← ParameterList.formats_untyped, untyped, ParameterList.formats_untyped]
  have count : b'.parameters.length = (Descriptor.fragments b'.statement).placeholderCount := by
    rw [fragments, ← planned.count]
    exact length_of_identity same
  have few : b'.parameters.length ≤ maxParameters := by
    rw [count, fragments]
    exact planned.few
  have bound := (wireValues_isOk_iff.1 ⟨_, wire⟩).1
  obtain ⟨plan', ok'⟩ := plan_isOk count few (checkAllSet_ok.2 bound) wire
  have planned' := plan_ok ok'
  have values : plan'.values = plan.values := Except.ok.inj (planned'.values.symm.trans wire)
  obtain ⟨bind, isBind, member⟩ := messages?_bind made
  rw [← name, planned.formats, ← formats, ← planned'.formats, ← values] at isBind
  exact ⟨plan', bind, planned'.rebinds ok' steady isBind (framed _ member)⟩

end

def bindMessages (binds : List Bind) : List FrontendMessage := binds.flatMap fun bind => [.bind bind, .execute "" 0]

/-- The messages are a bind and an execution for each of the names, and a synchronisation. -/
def BindsOnly (names : List StatementName) (messages : List FrontendMessage) : Prop :=
  ∃ binds : List Bind, binds.map (·.statement) = names.map (·.text) ∧ messages = bindMessages binds ++ [.sync]

section

variable {σ : Type} [Descriptor σ]

def AllRebind (bindings : List (Binding σ)) : Prop := ∀ b ∈ bindings, ∃ plan bind, b.Rebinds plan bind

theorem units_of_rebinds {bindings : List (Binding σ)} (all : AllRebind bindings) :
    ∃ plans units binds, bindings.mapM Binding.plan = .ok plans ∧ (bindings.zip plans).mapM unit? = some units ∧
      units.flatten.map (·.message) = bindMessages binds ∧
      binds.map (·.statement) = bindings.map (fun b => (Descriptor.name b.statement).text) ∧
      ∀ bind ∈ binds, (frame? (.bind bind)).isSome := by
  induction bindings with
  | nil => exact ⟨[], [], [], rfl, rfl, rfl, rfl, by simp⟩
  | cons b bindings ih =>
    obtain ⟨plan, bind, rebinds⟩ := all b (by simp)
    obtain ⟨plans, units, binds, planned, made, messages, names, framed⟩ :=
      ih fun other member => all other (by simp [member])
    refine ⟨plan :: plans, b.requests [.bind bind, .execute "" 0] :: units, bind :: binds, ?_, ?_, ?_, ?_, ?_⟩
    · rw [List.mapM_cons, rebinds.planned, planned]
      rfl
    · rw [List.zip_cons_cons, List.mapM_cons, unit?, rebinds.messages, made]
      rfl
    · rw [List.flatten_cons, List.map_append, messages]
      rfl
    · rw [List.map_cons, List.map_cons, names, rebinds.statement]
    · exact List.forall_mem_cons.2 ⟨rebinds.framed, framed⟩

theorem requests_of_rebinds {bindings : List (Binding σ)} (all : AllRebind bindings) :
    ∃ requests, requests? bindings = some requests ∧
      BindsOnly (bindings.map fun b => Descriptor.name b.statement) (pipelineOf requests) := by
  obtain ⟨plans, units, binds, planned, made, messages, names, framed⟩ := units_of_rebinds all
  have pipeline : pipelineOf units.flatten = bindMessages binds ++ [.sync] := by
    rw [pipelineOf, messages]
  have written : (writeAll? (pipelineOf units.flatten) []).isSome := by
    rw [pipeline]
    refine writeAll?_isSome (fun m member => ?_) []
    simp only [bindMessages, List.mem_append, List.mem_flatMap, List.mem_cons, List.not_mem_nil, or_false] at member
    rcases member with ⟨bind, inside, rfl | rfl⟩ | rfl
    · exact framed bind inside
    · exact frame?_isSome trivial (by decide)
    · exact frame?_isSome trivial (by decide)
  obtain ⟨bytes, written⟩ := Option.isSome_iff_exists.1 written
  refine ⟨units.flatten, ?_, binds, ?_, pipeline⟩
  · rw [requests?, planned]
    change ((bindings.zip plans).mapM unit?).bind _ = _
    rw [made]
    change (writeAll? (pipelineOf units.flatten) []).bind _ = _
    rw [written]
    rfl
  · rw [names, List.map_map]
    rfl

theorem await_bound (b : Binding σ) (c : Connection) : (b.await [.bound] c).2.1 = b := by
  unfold Binding.await
  cases c.receiveReply with
  | mk received d =>
    cases received with
    | error e => rfl
    | ok reply => cases reply <;> rfl

theorem awaitAll_bound {planned : List (Binding σ × Plan)} (bound : ∀ p ∈ planned, p.2.awaited = [.bound])
    (c : Connection) : (awaitAll planned c).2.1 = planned.map (·.1) := by
  induction planned generalizing c with
  | nil => rfl
  | cons p later ih =>
    have same := await_bound p.1 c
    rw [awaitAll_cons, awaitUnit, bound p (by simp)]
    generalize p.1.await [.bound] c = result at same ⊢
    obtain ⟨outcome, b, d⟩ := result
    cases same
    cases outcome with
    | error e => rfl
    | ok =>
      dsimp only
      generalize d.awaitCompletion 0 = result
      obtain ⟨outcome, d⟩ := result
      cases outcome with
      | error e => rfl
      | ok affected => exact congrArg (_ :: ·) (ih (fun q member => bound q (by simp [member])) d)

theorem exchange_rebinds {bindings : List (Binding σ)} (all : AllRebind bindings) {requests : List Request}
    (sent : requests? bindings = some requests) (c : Connection) :
    (exchange bindings c).2.1 = bindings ∧
      (c.writable = true → Sends c [requests] (exchange bindings c).2.2) := by
  cases writable : c.writable with
  | false =>
    obtain ⟨e, nothing⟩ := exchange_of_unwritable writable bindings
    rw [nothing]
    exact ⟨rfl, by simp⟩
  | true =>
    obtain ⟨planned, units, bytes, rfl, plans, -, -, written, exchanged⟩ := exchange_of_requests sent
    have bound : ∀ p ∈ planned, p.2.awaited = [.bound] := by
      intro p member
      obtain ⟨plan, bind, rebinds⟩ := all p.1 (List.mem_map_of_mem member)
      cases (plans p member).symm.trans rebinds.planned
      exact rebinds.awaited
    have same := awaitAll_bound bound { c with sent := c.sent ++ [bytes] }
    have quiet := awaitAll_quiet planned { c with sent := c.sent ++ [bytes] }
    rw [exchanged c writable]
    generalize awaitAll planned { c with sent := c.sent ++ [bytes] } = result at same quiet ⊢
    obtain ⟨outcome, bindings, d⟩ := result
    refine ⟨same, fun _ => ⟨[bytes], ?_, .cons written .nil⟩⟩
    exact (quiet.trans (d.resynchronise_quiet outcome)).sent

end

namespace Query

def Rebinds (query : Query) (parameters : Parameters) : Prop :=
  match query, parameters with
  | .single s, .single list => AllRebind [(⟨s, list⟩ : Binding Statement)]
  | .batched s, .single list =>
    list.length = s.arity ∧ s.reset = s ∧ AllRebind [(⟨s, list⟩ : Binding BatchedStatement)]
  | .composite statements, .composite lists =>
    statements.length = lists.length ∧ AllRebind (List.zipWith Binding.mk statements lists)
  | _, _ => False

/-- The execution sends these requests, and it leaves the query and the parameters as they are. -/
def Stays (query : Query) (parameters : Parameters) (requests : List Request) (c : Connection) : Prop :=
  (query.execute parameters c).query = query ∧ (query.execute parameters c).parameters = parameters ∧
    (c.writable = true → Sends c [requests] (query.execute parameters c).connection)

variable {query : Query} {parameters : Parameters}

theorem Rebinds.executes (rebinds : query.Rebinds parameters) :
    ∃ requests, query.pipelines parameters = [requests] ∧ BindsOnly query.names (pipelineOf requests) ∧
      ∀ c, query.Stays parameters requests c := by
  cases query with
  | single s =>
    cases parameters with
    | single list =>
      obtain ⟨requests, sent, only⟩ := requests_of_rebinds rebinds
      refine ⟨requests, congrArg Option.toList sent, only, fun c => ?_⟩
      obtain ⟨same, sends⟩ := exchange_rebinds rebinds sent c
      unfold Stays execute exchangeOne
      dsimp only
      rw [same]
      exact ⟨rfl, rfl, sends⟩
    | composite lists => exact rebinds.elim
  | batched s =>
    cases parameters with
    | single list =>
      obtain ⟨length, reset, rebinds⟩ := rebinds
      obtain ⟨requests, sent, only⟩ := requests_of_rebinds rebinds
      have name : s.baseName.ofRows s.rows = s.baseName := by
        rw [← reset, s.reset_single.1, StatementName.ofRows_one]
      refine ⟨requests, ?_, ?_, fun c => ?_⟩
      · rw [pipelines_batched length, reset]
        exact congrArg Option.toList sent
      · change BindsOnly [s.baseName.ofRows s.rows] _ at only
        rw [name] at only
        exact only
      · obtain ⟨same, sends⟩ := exchange_rebinds rebinds sent c
        unfold Stays
        rw [execute_batched length, reset, exchangeOne]
        dsimp only
        rw [same]
        exact ⟨rfl, rfl, sends⟩
    | composite lists => exact rebinds.elim
  | composite statements =>
    cases parameters with
    | single list => exact rebinds.elim
    | composite lists =>
      obtain ⟨length, rebinds⟩ := rebinds
      obtain ⟨requests, sent, only⟩ := requests_of_rebinds rebinds
      have bound := map_statement_zipWith length
      have lists' := map_parameters_zipWith length
      refine ⟨requests, ?_, ?_, fun c => ?_⟩
      · rw [pipelines_composite length]
        exact congrArg Option.toList sent
      · rw [names, ← bound, List.map_map]
        exact only
      · obtain ⟨same, sends⟩ := exchange_rebinds rebinds sent c
        unfold Stays
        rw [execute_composite length, same, bound, lists']
        exact ⟨rfl, rfl, sends⟩

end Query

end ExtendedQuery
