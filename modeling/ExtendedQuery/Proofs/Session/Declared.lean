import ExtendedQuery.Proofs.Batch.Template
import ExtendedQuery.Proofs.Session.Reaching
import ExtendedQuery.Proofs.Session.Written

/-!
# Types that are declared

Beside a statement stands what was described of it from its first execution on (`Told`), whatever the server is.
When the statement is parsed, each of its placeholders is declared with the type of its own parameter, or else with
the type that was described last for it. A server can describe fewer types than there are placeholders, and for the
others nothing is declared (`declared_types`, `declared_types_short`).
-/

namespace ExtendedQuery

open Wire Connection

/-! ## Statements and what was described of them -/

/-- All lists of types that were described, the oldest first, and the types that stand for the placeholders now. -/
structure Described where
  reports : List (List Oid)
  types : List Oid
  deriving DecidableEq, Repr

namespace Described

def nothing (count : Nat) : Described := ⟨[], List.replicate count .unspecified⟩

def hear (described : Described) (types : List Oid) : Described := ⟨described.reports ++ [types], types⟩

/-- The types of one row of an insert. What was specified first in the column of a slot stands for it. -/
def row (arity : Nat) (reports : List (List Oid)) : List Oid :=
  (List.range arity).map fun slot => Oid.firstSpecified (reports.flatMap (Oid.column arity slot))

theorem row_nil (arity : Nat) : row arity [] = List.replicate arity .unspecified := by
  have each : row arity [] = (List.range arity).map fun _ => Oid.unspecified := rfl
  rw [each, List.map_const', List.length_range]

/-- For another number of rows nothing was described, so the types of one row stand for each of them. -/
def reshape (arity rows : Nat) (described : Described) : Described :=
  { described with types := (List.replicate rows (row arity described.reports)).flatten }

end Described

structure Told (σ : Type) where
  statement : σ
  described : Described

namespace Told

variable {σ : Type} [Descriptor σ]

def await (s : Told σ) (list : ParameterList) (awaited : List Awaited) (c : Connection) : Told σ :=
  let b : Binding σ := ⟨s.statement, list⟩
  ⟨(b.await awaited c).2.1.statement, (b.reports awaited c).foldl Described.hear s.described⟩

inductive Hears (s : Told σ) : Told σ → Prop
  | nothing : Hears s s
  | prepared (types : Option (List Oid)) : Hears s ⟨Descriptor.setPrepared types s.statement, s.described⟩
  | types (types : List Oid) : Hears s ⟨Descriptor.setTypes types s.statement, s.described.hear types⟩
  | fields (fields : List Field) : Hears s ⟨Descriptor.setFields fields s.statement, s.described⟩

theorem hears_of_updates {b b' : Binding σ} {types : Option (List Oid)} (updates : b.Updates types b')
    (described : Described) : Hears ⟨b.statement, described⟩ ⟨b'.statement, types.toList.foldl .hear described⟩ := by
  cases updates with
  | nothing => exact .nothing
  | prepared types => exact .prepared types
  | types types => exact .types types
  | fields fields => exact .fields fields

theorem await_keeps {motive : Told σ → Prop} (step : ∀ {s t}, Hears s t → motive s → motive t) {s : Told σ}
    (start : motive s) (list : ParameterList) (awaited : List Awaited) (c : Connection) :
    motive (s.await list awaited c) := by
  let after (b : Binding σ) (reports : List (List Oid)) : Told σ :=
    ⟨b.statement, reports.foldl Described.hear s.described⟩
  apply Binding.await_keeps (motive := fun b reports => motive (after b reports)) ?_ awaited [] start c
  intro b b' types reports updates now
  have heard := hears_of_updates updates (reports.foldl Described.hear s.described)
  rw [← List.foldl_append] at heard
  exact step heard now

end Told

/-! ## What becomes of them -/

namespace Statement

variable {s t : Told Statement}

/-- What executions on any connections and closing lead a statement to. -/
inductive Leads (s : Told Statement) : Told Statement → Prop
  | refl : Leads s s
  | execute {t : Told Statement} {list : ParameterList} {plan : Plan} (c : Connection) : Leads s t →
      Binding.plan ⟨t.statement, list⟩ = .ok plan → Leads s (t.await list plan.awaited c)
  | close {t : Told Statement} : Leads s t → Leads s { t with statement := t.statement.close.1 }

def Knows (s : Told Statement) : Prop := s.statement.types = s.described.types

theorem Knows.hears (hears : s.Hears t) (knows : Knows s) : Knows t := by
  cases hears with
  | nothing => exact knows
  | prepared types => exact (KeepsTypes.types_setPrepared types s.statement).trans knows
  | types types => exact KeepsTypes.types_setTypes types s.statement
  | fields fields => exact (KeepsTypes.types_setFields fields s.statement).trans knows

theorem Leads.knows (leads : Leads s t) (knows : Knows s) : Knows t := by
  induction leads with
  | refl => exact knows
  | execute c _ _ ih => exact Told.await_keeps Knows.hears ih _ _ c
  | close _ ih => exact ih

theorem leads_of_reaches {first last : Statement} (reaches : first.Reaches last) (described : Described) :
    ∃ later, Leads ⟨first, described⟩ ⟨last, later⟩ := by
  induction reaches with
  | refl => exact ⟨described, .refl⟩
  | exchanged _ exchanged ih =>
    cases exchanged with
    | unchanged => exact ih
    | awaited c planned =>
      obtain ⟨later, leads⟩ := ih
      exact ⟨_, .execute c leads planned⟩
  | close _ ih =>
    obtain ⟨later, leads⟩ := ih
    exact ⟨later, .close leads⟩

end Statement

namespace BatchedStatement

inductive Leads (s : Told BatchedStatement) : Told BatchedStatement → Prop
  | refl : Leads s s
  | execute {t : Told BatchedStatement} {list : ParameterList} {plan : Plan} (c : Connection) : Leads s t →
      Binding.plan ⟨t.statement, list⟩ = .ok plan → Leads s (t.await list plan.awaited c)
  | call {t : Told BatchedStatement} {u : BatchedStatement} {operation : Operation} : Leads s t →
      operation.isCall = true → t.statement.attempt operation = .ok u →
      Leads s ⟨u, if u.rows = t.statement.rows then t.described else t.described.reshape u.arity u.rows⟩
  | take {t : Told BatchedStatement} : Leads s t →
      Leads s { t with statement := { t.statement with pending := none } }

structure Knows (s : Told BatchedStatement) : Prop where
  placeholders : 0 < s.statement.arity
  types : s.statement.types = s.described.types
  template : s.statement.template = Described.row s.statement.arity s.described.reports

variable {s t : Told BatchedStatement}

theorem foldTemplate_row {arity : Nat} (positive : 0 < arity) (reports : List (List Oid)) (types : List Oid) :
    foldTemplate arity (Described.row arity reports) types = Described.row arity (reports ++ [types]) := by
  apply List.ext_getElem?
  intro slot
  rw [getElem?_foldTemplate positive, Described.row, Described.row, List.getElem?_map, List.getElem?_map,
    Option.map_map]
  by_cases inside : slot < arity
  · rw [List.getElem?_range inside, Option.map_some, Option.map_some, List.flatMap_append, Oid.firstSpecified_append]
    simp
  · rw [List.getElem?_eq_none (by simpa using inside)]
    rfl

theorem Knows.hears (hears : s.Hears t) (knows : Knows s) : Knows t := by
  obtain ⟨placeholders, types, template⟩ := knows
  cases hears with
  | nothing => exact ⟨placeholders, types, template⟩
  | prepared reported =>
    obtain ⟨shapes, same⟩ := setPrepared_eq reported s.statement
    change Knows ⟨s.statement.setPrepared reported, s.described⟩
    rw [same]
    exact ⟨placeholders, types, template⟩
  | types reported =>
    refine ⟨placeholders, rfl, ?_⟩
    change foldTemplate s.statement.arity s.statement.template reported = _
    rw [template]
    exact foldTemplate_row placeholders s.described.reports reported
  | fields reported =>
    obtain ⟨shapes, same⟩ := setFields_eq reported s.statement
    change Knows ⟨s.statement.setFields reported, s.described⟩
    rw [same]
    exact ⟨placeholders, types, template⟩

theorem Knows.call (knows : Knows s) {operation : Operation} (call : operation.isCall = true) {t : BatchedStatement}
    (done : s.statement.attempt operation = .ok t) :
    Knows ⟨t, if t.rows = s.statement.rows then s.described else s.described.reshape t.arity t.rows⟩ := by
  have arity : t.arity = s.statement.arity := congrArg Sql.Fragments.placeholderCount (attempt_changes done).base
  have placeholders : 0 < t.arity := arity ▸ knows.placeholders
  cases attempt_retypes done with
  | reported => cases call
  | reshaped _ different types template =>
    rw [if_neg different]
    have row : t.template = Described.row t.arity s.described.reports := by rw [template, knows.template, arity]
    refine ⟨placeholders, ?_, row⟩
    change t.types = (List.replicate t.rows (Described.row t.arity s.described.reports)).flatten
    rw [types, row]
  | kept _ rows types template =>
    rw [if_pos rows]
    refine ⟨placeholders, types.trans knows.types, ?_⟩
    change t.template = Described.row t.arity s.described.reports
    rw [template, knows.template, arity]

theorem Leads.knows (leads : Leads s t) (knows : Knows s) : Knows t := by
  induction leads with
  | refl => exact knows
  | execute c _ _ ih => exact Told.await_keeps Knows.hears ih _ _ c
  | call _ call done ih => exact ih.call call done
  | take _ ih => exact ⟨ih.placeholders, ih.types, ih.template⟩

theorem leads_of_reaches {first last : BatchedStatement} (reaches : first.Reaches last) (described : Described) :
    ∃ later, Leads ⟨first, described⟩ ⟨last, later⟩ := by
  induction reaches with
  | refl => exact ⟨described, .refl⟩
  | exchanged _ exchanged ih =>
    cases exchanged with
    | unchanged => exact ih
    | awaited c planned =>
      obtain ⟨later, leads⟩ := ih
      exact ⟨_, .execute c leads planned⟩
  | call _ _ call done ih =>
    obtain ⟨later, leads⟩ := ih
    exact ⟨_, .call leads call done⟩
  | take _ ih =>
    obtain ⟨later, leads⟩ := ih
    exact ⟨later, .take leads⟩

end BatchedStatement

/-! ## What a pipeline declares -/

/-- The types that are declared for parameters of these types, as far as the server has described them. -/
structure Declares (count : Nat) (own described declared : List Oid) : Prop where
  parameters : own.length = count
  length : declared.length = min count described.length
  each {i : Nat} {oid last : Oid} : own[i]? = some oid → described[i]? = some last →
    declared[i]? = some (if oid = .unspecified then last else oid)

theorem parse_of_isFor {σ : Type} [Descriptor σ] {r : Request} {b : Binding σ} (isFor : r.IsFor b) {m : Parse}
    (parse : r.message = .parse m) : ∃ plan, b.plan = .ok plan ∧ r = b.request (.parse (b.parseOf plan)) := by
  obtain ⟨plan, messages, planned, made, message, member, rfl⟩ := isFor
  change message = .parse m at parse
  subst parse
  rw [Binding.messages?_eq planned] at made
  cases made
  rcases Binding.mem_unit member with same | same | same | same | same <;> cases same
  exact ⟨plan, planned, rfl⟩

theorem declares_of_isFor {σ : Type} [Descriptor σ] {s : Told σ} {list : ParameterList} {r : Request}
    (isFor : r.IsFor ⟨s.statement, list⟩) (types : Descriptor.types s.statement = s.described.types) {m : Parse}
    (parse : r.message = .parse m) :
    Declares (Descriptor.fragments s.statement).placeholderCount r.oids s.described.types m.types := by
  obtain ⟨plan, planned, rfl⟩ := parse_of_isFor isFor parse
  cases parse
  have isPlan := plan_ok planned
  have same : plan.types = List.zipWith Oid.orElse list.oids s.described.types := by
    rw [isPlan.types, Binding.types, types]
  constructor
  · rw [← isPlan.count]
    exact List.length_map _
  · rw [Binding.parseOf, same, List.length_zipWith, ParameterList.oids, List.length_map, isPlan.count]
  · intro i oid last here there
    rw [Binding.parseOf, same, List.getElem?_zipWith]
    change list.oids[i]? = some oid at here
    rw [here, there]
    rfl

/-! ## Queries -/

inductive ToldQuery where
  | single (s : Told Statement)
  | batched (s : Told BatchedStatement)
  | composite (statements : List (Told Statement))

namespace ToldQuery

def query : ToldQuery → Query
  | single s => .single s.statement
  | batched s => .batched s.statement
  | composite statements => .composite (statements.map (·.statement))

def ofQuery : Query → ToldQuery
  | .single s => .single ⟨s, .nothing s.fragments.placeholderCount⟩
  | .batched s => .batched ⟨s, .nothing s.arity⟩
  | .composite statements => .composite (statements.map fun s => ⟨s, .nothing s.fragments.placeholderCount⟩)

inductive Leads : ToldQuery → ToldQuery → Prop
  | single {s t : Told Statement} : Statement.Leads s t → Leads (.single s) (.single t)
  | batched {s t : Told BatchedStatement} : BatchedStatement.Leads s t → Leads (.batched s) (.batched t)
  | composite {statements others : List (Told Statement)} : List.Forall₂ Statement.Leads statements others →
      Leads (.composite statements) (.composite others)

/-- Queries that were prepared, executed alone and in batches, and closed, on any connections. -/
inductive History : ToldQuery → Prop
  | prepare {sql : Text} {kept : Bool} {caps : Capabilities} {config : Config} {names names' : NameSupply}
      {query : Query} : Query.prepare sql kept caps config names = .ok (query, names') → History (ofQuery query)
  | call {q q' : ToldQuery} {pipelines : List (List Request)} {c d : Connection} : History q →
      Call c q.query pipelines d q'.query → Leads q q' → History q'
  | close {q q' : ToldQuery} : History q → q.query.close.1 = q'.query → Leads q q' → History q'

/-- The request is sent for a statement of so many placeholders that the query leads to, and of which these types
were described last. -/
inductive Tells : ToldQuery → Request → (count : Nat) → (described : List Oid) → Prop
  | single {s t : Told Statement} {list : ParameterList} {r : Request} : Statement.Leads s t →
      r.IsSentFor ⟨t.statement, list⟩ →
      Tells (.single s) r t.statement.fragments.placeholderCount t.described.types
  | batched {s t : Told BatchedStatement} {list : ParameterList} {r : Request} : BatchedStatement.Leads s t →
      r.IsSentFor ⟨t.statement, list⟩ →
      Tells (.batched s) r t.statement.fragments.placeholderCount t.described.types
  | composite {statements : List (Told Statement)} {s t : Told Statement} {list : ParameterList} {r : Request} :
      s ∈ statements → Statement.Leads s t → r.IsSentFor ⟨t.statement, list⟩ →
      Tells (.composite statements) r t.statement.fragments.placeholderCount t.described.types

def Knows : ToldQuery → Prop
  | single s => Statement.Knows s
  | batched s => BatchedStatement.Knows s
  | composite statements => ∀ s ∈ statements, Statement.Knows s

variable {q q' : ToldQuery}

theorem Leads.knows (leads : Leads q q') (knows : q.Knows) : q'.Knows := by
  cases leads with
  | single leads => exact Statement.Leads.knows leads knows
  | batched leads => exact BatchedStatement.Leads.knows leads knows
  | composite leads =>
    intro t member
    obtain ⟨s, inside, leads⟩ := exists_of_mem_right leads member
    exact leads.knows (knows s inside)

theorem knows_prepare {sql : Text} {kept : Bool} {caps : Capabilities} {config : Config} {names names' : NameSupply}
    {query : Query} (prepared : Query.prepare sql kept caps config names = .ok (query, names')) :
    (ofQuery query).Knows := by
  cases Query.made_of_prepare prepared with
  | single fragments => exact rfl
  | @batched fragments growable =>
    exact ⟨BatchedStatement.placeholderCount_pos_of_isGrowable growable, rfl, (Described.row_nil _).symm⟩
  | composite statements =>
    obtain ⟨-, made⟩ := NameSupply.takeFor_taken kept statements names
    intro s member
    obtain ⟨t, inside, rfl⟩ := List.mem_map.1 member
    obtain ⟨fragments, same⟩ := made t inside
    rw [same]
    rfl

theorem History.knows (history : History q) : q.Knows := by
  induction history with
  | prepare prepared => exact knows_prepare prepared
  | call _ _ leads ih => exact leads.knows ih
  | close _ _ leads ih => exact leads.knows ih

theorem Tells.declares {r : Request} {count : Nat} {described : List Oid} (tells : q.Tells r count described)
    (knows : q.Knows) {m : Parse} (parse : r.message = .parse m) : Declares count r.oids described m.types := by
  cases tells with
  | single leads sentFor => exact declares_of_isFor sentFor.isFor (leads.knows knows) parse
  | batched leads sentFor => exact declares_of_isFor sentFor.isFor (leads.knows knows).types parse
  | composite member leads sentFor => exact declares_of_isFor sentFor.isFor (leads.knows (knows _ member)) parse

/-! ## What calls lead to -/

theorem statements_lead {statements : List (Told Statement)} {others : List Statement}
    (reaches : List.Forall₂ Statement.Reaches (statements.map (·.statement)) others) :
    ∃ later : List (Told Statement), later.map (·.statement) = others ∧
      List.Forall₂ Statement.Leads statements later := by
  induction statements generalizing others with
  | nil =>
    cases reaches
    exact ⟨[], rfl, .nil⟩
  | cons s statements ih =>
    cases reaches with
    | cons first reaches =>
      obtain ⟨described, leads⟩ := Statement.leads_of_reaches first s.described
      obtain ⟨later, rfl, others⟩ := ih reaches
      exact ⟨⟨_, described⟩ :: later, rfl, .cons leads others⟩

theorem leads_of_reaches {query' : Query} (reaches : q.query.Reaches query') :
    ∃ later : ToldQuery, later.query = query' ∧ q.Leads later := by
  cases q with
  | single s =>
    cases reaches with
    | single reaches =>
      obtain ⟨described, leads⟩ := Statement.leads_of_reaches reaches s.described
      exact ⟨.single ⟨_, described⟩, rfl, .single leads⟩
  | batched s =>
    cases reaches with
    | batched reaches =>
      obtain ⟨described, leads⟩ := BatchedStatement.leads_of_reaches reaches s.described
      exact ⟨.batched ⟨_, described⟩, rfl, .batched leads⟩
  | composite statements =>
    cases reaches with
    | composite reaches =>
      obtain ⟨later, rfl, leads⟩ := statements_lead reaches
      exact ⟨.composite later, rfl, .composite leads⟩

theorem tells_of_asks {r : Request} (asks : q.query.Asks r) : ∃ count described, q.Tells r count described := by
  cases q with
  | single s =>
    cases asks with
    | single reaches sentFor =>
      obtain ⟨described, leads⟩ := Statement.leads_of_reaches reaches s.described
      exact ⟨_, _, .single leads sentFor⟩
  | batched s =>
    cases asks with
    | batched reaches sentFor =>
      obtain ⟨described, leads⟩ := BatchedStatement.leads_of_reaches reaches s.described
      exact ⟨_, _, .batched leads sentFor⟩
  | composite statements =>
    cases asks with
    | composite member reaches sentFor =>
      obtain ⟨s, inside, rfl⟩ := List.mem_map.1 member
      obtain ⟨described, leads⟩ := Statement.leads_of_reaches reaches s.described
      exact ⟨_, _, .composite inside leads sentFor⟩

end ToldQuery

/-- Whatever the statements of a query were executed for and whatever a server has described of them, a parse declares
each placeholder with the type of its parameter, or with the one that was described last. It declares all of them
exactly if as many types were described. -/
theorem declared_types {q : ToldQuery} (history : q.History) {c d : Connection} {pipelines : List (List Request)}
    {query' : Query} (call : Call c q.query pipelines d query') :
    (∃ q' : ToldQuery, q'.query = query' ∧ q.Leads q') ∧
      ∀ requests ∈ pipelines, ∀ r ∈ requests,
        (∃ count described, q.Tells r count described) ∧
        ∀ count described, q.Tells r count described → ∀ m, r.message = .parse m →
          Declares count r.oids described m.types ∧ (m.types.length = count ↔ count ≤ described.length) := by
  refine ⟨ToldQuery.leads_of_reaches call.reaches, ?_⟩
  intro requests sent r asked
  refine ⟨ToldQuery.tells_of_asks (call.asks requests sent r asked), ?_⟩
  intro count described tells m parse
  have declares := tells.declares history.knows parse
  refine ⟨declares, ?_⟩
  rw [declares.length, min_eq_left_iff]

/-! ## A description that is too short -/

def onceStatement : Statement := .ofFragments ⟨"SELECT ".toList, [[]]⟩ .unnamed

def onceQuery : Query := .single onceStatement

theorem onceQuery_prepare :
    Query.prepare "SELECT ?".toList false .default .default .fresh = .ok (onceQuery, .fresh) := by cbv

def sevenRow : ParameterList := [⟨.value (.binary [0, 0, 0, 7]), Oid.int4, .input, .binary⟩]

def sevenPlan : Plan := ⟨false, true, true, [Oid.int4], [.binary], [some [0, 0, 0, 7]]⟩

def sevenParse (name : String) : Parse := ⟨name, "SELECT $1", 1, [Oid.int4]⟩

def sevenBind (name : String) : Bind := ⟨"", name, 1, [.binary], 1, 8, [some [0, 0, 0, 7]], 0, []⟩

def sevenRequests (name : String) : List Request :=
  [⟨"SELECT $1", [Oid.int4], .parse (sevenParse name)⟩,
    ⟨"SELECT $1", [Oid.int4], .describe statementTarget name⟩,
    ⟨"SELECT $1", [Oid.int4], .bind (sevenBind name)⟩, ⟨"SELECT $1", [Oid.int4], .execute "" 0⟩]

theorem onceQuery_sends : onceQuery.pipelines (.single sevenRow) = [sevenRequests ""] := by rfl

def onceDescribed (types : List Oid) : Told Statement :=
  ⟨{ onceStatement with types := types, described := true }, ⟨[types], types⟩⟩

def selectTag : Bytes := [0x53, 0x45, 0x4C, 0x45, 0x43, 0x54, 0x20, 0x31, 0]

def describingReplies (count : UInt16) (body : Bytes) : List BackendMessage :=
  [.parseComplete, .parameterDescription count body, .noData, .bindComplete, .commandComplete "SELECT 1", .readyForQuery]

def describingConnection (description : Bytes) : Connection :=
  ⟨frames [(0x31, []), (0x74, description), (0x6E, []), (0x32, []), (0x43, selectTag), (0x5A, [0x49])] ++ [], [], true,
    .default⟩

theorem onceDescribed_acknowledged {count : UInt16} {body : Bytes} {types : List Oid}
    (decoded : decodeOids count body = .ok types) :
    acknowledged [(⟨onceStatement, sevenRow⟩ : Binding Statement)] (describingReplies count body) =
      [⟨(onceDescribed types).statement, sevenRow.resolve types⟩] := by
  change sharedOut Binding.noted [(⟨onceStatement, sevenRow⟩, sevenPlan)] _ = _
  simp only [describingReplies, sharedOut, BackendMessage.completes, Binding.noted, decoded, List.map_nil]
  rfl

theorem onceDescribed_history {count : UInt16} {body description : Bytes} {types : List Oid}
    (decoded : decodeOids count body = .ok types)
    (delivered : Delivers (describingReplies count body) (describingConnection description).incoming [])
    (heard : Told.await ⟨onceStatement, .nothing 1⟩ sevenRow sevenPlan.awaited (describingConnection description) =
      onceDescribed types) : (ToldQuery.single (onceDescribed types)).History := by
  have executed : Answered [.execute "" 0, .sync] ([] ++ [.commandComplete "SELECT 1"] ++ ([.readyForQuery] ++ [])) _ :=
    .execute (by simp) .tag (.other (by simp) .sync .nil)
  have answered : Answered (pipelineOf (sevenRequests "")) (describingReplies count body) _ :=
    .other (by simp) .parse (.other (by simp) (.describe decoded .noData) (.other (by simp) .bind executed))
  have step := Query.execute_inStep onceQuery_sends (c := describingConnection description) rfl
  obtain ⟨-, -, -, recorded⟩ := step.acknowledged answered delivered
  have call : Call (describingConnection description) onceQuery _ _ _ := .execute (.single sevenRow)
  have same : (onceQuery.execute (.single sevenRow) (describingConnection description)).query =
      .single (onceDescribed types).statement := by
    refine (congrArg Prod.fst recorded).trans ?_
    rw [onceQuery, Query.acknowledged, onceDescribed_acknowledged decoded]
    rfl
  rw [same] at call
  have planned : Binding.plan ⟨onceStatement, sevenRow⟩ = .ok sevenPlan := by rfl
  have leads : Statement.Leads ⟨onceStatement, .nothing 1⟩ _ :=
    .execute (describingConnection description) .refl planned
  rw [heard] at leads
  exact .call (.prepare onceQuery_prepare) call (.single leads)

def untypedRow : ParameterList := [⟨.value (.text "7"), Oid.unspecified, .input, .text⟩]

def untypedRequests : List Request :=
  [⟨"SELECT $1", [Oid.unspecified], .parse (sevenParse "")⟩,
    ⟨"SELECT $1", [Oid.unspecified], .bind ⟨"", "", 1, [.text], 1, 5, [some [0x37]], 0, []⟩⟩,
    ⟨"SELECT $1", [Oid.unspecified], .execute "" 0⟩]

theorem declared_types_seven :
    (ToldQuery.single (onceDescribed [Oid.int4])).History ∧
      (ToldQuery.single (onceDescribed [Oid.int4])).query.pipelines (.single untypedRow) = [untypedRequests] ∧
      Declares 1 [Oid.unspecified] [Oid.int4] (sevenParse "").types ∧ (sevenParse "").types.length = 1 := by
  have decoded : decodeOids 1 [0, 0, 0, 23] = .ok [Oid.int4] := by rfl
  have delivered : Delivers (describingReplies 1 [0, 0, 0, 23])
      (describingConnection [0, 1, 0, 0, 0, 23]).incoming [] := delivers_frames (by decide) rfl []
  have history := onceDescribed_history decoded delivered (by cbv)
  have sends : pipelines [(⟨(onceDescribed [Oid.int4]).statement, untypedRow⟩ : Binding Statement)] =
      [untypedRequests] := by rfl
  have sent : untypedRequests ∈
      pipelines [(⟨(onceDescribed [Oid.int4]).statement, untypedRow⟩ : Binding Statement)] := by simp [sends]
  have asked : ⟨"SELECT $1", [Oid.unspecified], .parse (sevenParse "")⟩ ∈ untypedRequests := List.mem_cons_self
  obtain ⟨b, inside, sentFor⟩ := isSentFor_of_pipelines sent asked
  cases List.mem_singleton.1 inside
  have call : Call ⟨[], [], true, .default⟩ (ToldQuery.single (onceDescribed [Oid.int4])).query _ _ _ :=
    .execute (.single untypedRow)
  obtain ⟨-, each⟩ := declared_types history call
  obtain ⟨-, declares⟩ := each untypedRequests sent _ asked
  obtain ⟨declares, complete⟩ := declares 1 [Oid.int4] (.single .refl sentFor) (sevenParse "") rfl
  exact ⟨history, sends, declares, complete.2 (by decide)⟩

/-- No type is declared, and the placeholder is bound to a binary number. -/
theorem declared_types_short :
    (ToldQuery.single (onceDescribed [])).History ∧ onceStatement.fragments.placeholderCount = 1 ∧
      (ToldQuery.single (onceDescribed [])).query.pipelines (.single sevenRow) =
        [[⟨"SELECT $1", [Oid.int4], .parse ⟨"", "SELECT $1", 0, []⟩⟩,
          ⟨"SELECT $1", [Oid.int4], .bind (sevenBind "")⟩, ⟨"SELECT $1", [Oid.int4], .execute "" 0⟩]] := by
  have decoded : decodeOids 0 [] = .ok [] := by rfl
  have delivered : Delivers (describingReplies 0 []) (describingConnection [0, 0]).incoming [] :=
    delivers_frames (by decide) rfl []
  refine ⟨onceDescribed_history decoded delivered (by cbv), rfl, ?_⟩
  rfl

end ExtendedQuery
