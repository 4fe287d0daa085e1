import ExtendedQuery.Proofs.Pipeline.Acknowledged
import ExtendedQuery.Proofs.Statement.Typed

/-!
# Pipelines that are typed

Each message of a pipeline comes when the server can serve it, and its replies keep the records in line with the
types that the server gives (`runs_unit`, `runs_units`). A statement whose messages were all served is steady: it
is prepared for the types that it is asked for next, and it is described.
-/

namespace ExtendedQuery

open Wire TypingServer

section

variable {σ : Type} [Descriptor σ] {plan : Plan} {b : Binding σ}

theorem ParameterList.oids_resolve (list : ParameterList) (found : List Oid) :
    (list.resolve found).oids = Oid.fill list.oids found := by
  unfold oids resolve Oid.fill
  rw [List.map_append, List.map_zipWith, List.zipWith_map_left, List.map_drop]
  rfl

theorem isPreparedFor_iff {wanted : List Oid} {s : σ} : Descriptor.isPreparedFor wanted s = true ↔
    ∃ declared, Descriptor.prepared s = some declared ∧ Oid.accepts declared wanted = true := by
  unfold Descriptor.isPreparedFor
  cases Descriptor.prepared s <;> simp

theorem noted_types {count : UInt16} {body : Bytes} {types : List Oid} (decoded : decodeOids count body = .ok types)
    (b : Binding σ) : b.noted plan (.parameterDescription count body) =
      ⟨Descriptor.setTypes types b.statement, b.parameters.resolve types⟩ := by
  unfold Binding.noted
  dsimp only
  rw [decoded]

theorem noted_description {count : UInt16} {body : Bytes} {types : List Oid} {result : BackendMessage}
    (decoded : decodeOids count body = .ok types) (isResult : IsResult result) (b : Binding σ) :
    ∃ fields, [.parameterDescription count body, result].foldl (Binding.noted plan) b =
      ⟨Descriptor.setFields fields (Descriptor.setTypes types b.statement), b.parameters.resolve types⟩ := by
  rw [List.foldl_cons, List.foldl_cons, List.foldl_nil, noted_types decoded]
  cases isResult with
  | noData => exact ⟨[], rfl⟩
  | @fields count body fields decoded =>
    refine ⟨fields, ?_⟩
    unfold Binding.noted
    dsimp only
    rw [decoded]

theorem noted_of_completes {b : Binding σ} {ending : BackendMessage} (completes : ending.completes = true) :
    b.noted plan ending = b := by
  cases ending with
  | commandComplete | emptyQueryResponse | portalSuspended => rfl
  | _ => cases completes

end

/-- The server has the statement for the types that it is asked for next, and it needs no description. -/
structure Binding.Steady {σ : Type} [Descriptor σ] (b : Binding σ) : Prop where
  prepared : Descriptor.isPreparedFor b.types b.statement = true
  described : Descriptor.isDescribed b.statement = true

section

variable {σ : Type} [Descriptor σ] {marks : String → Nat} {held last : Holdings} {plan : Plan} {b : Binding σ}
  {messages : List FrontendMessage} {replies : List BackendMessage} {whole : Bool} {bind : Bind}

theorem runs_execute (plan : Plan) (b : Binding σ)
    (runs : Runs marks held [.bind bind, .execute "" 0] replies whole last) :
    last = held ∧ replies.foldl (Binding.noted plan) b = b := by
  cases runs with
  | stop begins =>
    cases begins
    exact ⟨rfl, rfl⟩
  | cons step later =>
    cases step
    cases later with
    | stop begins =>
      cases begins with
      | nothing => exact ⟨rfl, rfl⟩
      | execute each => exact ⟨rfl, foldl_noted_rows each b⟩
    | cons step later =>
      cases later
      cases step with
      | execute each completes =>
        refine ⟨rfl, ?_⟩
        change (_ ++ [_] ++ []).foldl (Binding.noted plan) b = b
        rw [List.append_nil, List.foldl_append, foldl_noted_rows each]
        exact noted_of_completes completes.completes

theorem types_setPrepared [KeepsTypes σ] (types : Option (List Oid)) (b : Binding σ) :
    Binding.types ⟨Descriptor.setPrepared types b.statement, b.parameters⟩ = b.types := by
  rw [Binding.types, KeepsTypes.types_setPrepared]
  rfl

structure Reparses (plan : Plan) (b : Binding σ) (parse : Parse) : Prop where
  count : b.parameters.length = (Descriptor.fragments b.statement).placeholderCount
  describe : plan.describe = true
  wanted : plan.types = b.types
  name : parse.name = (Descriptor.name b.statement).text
  sql : parse.sql = String.ofList (Descriptor.sql b.statement)
  types : parse.types = plan.types

theorem Reparses.setPrepared [Tracked σ] [KeepsTypes σ] {parse : Parse} (reparses : Reparses plan b parse)
    (types : Option (List Oid)) :
    Reparses plan ⟨Descriptor.setPrepared types b.statement, b.parameters⟩ parse := by
  obtain ⟨name, sql, fragments⟩ := Tracked.eq_of_bare (Tracked.bare_setPrepared types b.statement)
  constructor
  · rw [fragments]
    exact reparses.count
  · exact reparses.describe
  · rw [types_setPrepared]
    exact reparses.wanted
  · rw [name]
    exact reparses.name
  · rw [sql]
    exact reparses.sql
  · exact reparses.types

variable [Tracked σ] [TypeTracked σ]

open TypeTracked

structure Ready (marks : String → Nat) (plan : Plan) (held : Holdings) (b : Binding σ) : Prop where
  typed : Typed marks held b.statement
  count : b.parameters.length = (Descriptor.fragments b.statement).placeholderCount
  prepared : Descriptor.isPreparedFor b.types b.statement = true
  described : plan.describe = false → Descriptor.isDescribed b.statement = true

theorem Ready.isSome (ready : Ready marks plan held b) : (Descriptor.prepared b.statement).isSome := by
  obtain ⟨declared, prepared, -⟩ := isPreparedFor_iff.1 ready.prepared
  rw [prepared]
  rfl

theorem typed_close (typed : Typed marks held b.statement) :
    Typed marks (Function.update held (Descriptor.name b.statement).text none)
      (Descriptor.setPrepared none b.statement) := by
  apply typed_setPrepared typed
  rw [Option.isSome_none, Bool.and_false]
  exact .unparsed

theorem typed_apart {held' : Holdings} {s t : σ} (typed : Typed marks held s) (apart : Apart t s)
    (frame : ∀ other, other ≠ (Descriptor.name t).text → held' other = held other) : Typed marks held' s :=
  typed_frame typed fun other owns => frame other (apart.ne_name owns)

theorem oids_length_le (typed : Typed marks held b.statement)
    (count : b.parameters.length = (Descriptor.fragments b.statement).placeholderCount) :
    b.parameters.oids.length ≤ (Descriptor.types b.statement).length := by
  rw [ParameterList.oids, List.length_map, count]
  exact typed_length typed

theorem Reparses.length {parse : Parse} (reparses : Reparses plan b parse) (typed : Typed marks held b.statement) :
    parse.types.length = (Descriptor.fragments b.statement).placeholderCount := by
  have short := oids_length_le typed reparses.count
  rw [reparses.types, reparses.wanted, Binding.types, List.length_zipWith, Nat.min_eq_left short,
    ParameterList.oids, List.length_map, reparses.count]

variable [KeepsTypes σ]

theorem Ready.steady (ready : Ready marks plan held b) {statement : Held}
    (found : held (Descriptor.name b.statement).text = some statement) (fields : List Field) :
    Binding.Steady ⟨Descriptor.setFields fields (Descriptor.setTypes statement.types b.statement),
      b.parameters.resolve statement.types⟩ := by
  obtain ⟨declared, prepared, accepts⟩ := isPreparedFor_iff.1 ready.prepared
  have typed := typed_setTypes ready.typed ready.isSome found
  have conforms := typed_conforms ready.typed
  rw [found] at conforms
  obtain ⟨declared', front, rest, same, rfl, -, resolves⟩ := conforms.given ready.isSome
  cases prepared.symm.trans same
  have own : Resolves b.parameters.oids front :=
    resolves_oids (oids_length_le ready.typed ready.count) (resolves_of_accepts accepts resolves)
  constructor
  · apply isPreparedFor_iff.2
    refine ⟨front, ?_, ?_⟩
    · rw [prepared_setFields typed, prepared_setTypes, prepared, Option.map_some, resolves.fill_append]
    · rw [Binding.types, KeepsTypes.types_setFields, KeepsTypes.types_setTypes, ParameterList.oids_resolve,
        own.fill_append, (Resolves.refl front).orElse]
      exact Oid.accepts_self front
  · exact isDescribed_setFields typed fields

theorem runs_describe (ready : Ready marks plan held b)
    (runs : Runs marks held ((if plan.describe then
      [.describe statementTarget (Descriptor.name b.statement).text] else []) ++ [.bind bind, .execute "" 0])
      replies whole last) :
    Typed marks last (replies.foldl (Binding.noted plan) b).statement ∧
      (whole = true → Binding.Steady (replies.foldl (Binding.noted plan) b)) := by
  cases wanted : plan.describe with
  | false =>
    rw [wanted] at runs
    obtain ⟨rfl, same⟩ := runs_execute plan b runs
    rw [same]
    exact ⟨ready.typed, fun _ => ⟨ready.prepared, ready.described wanted⟩⟩
  | true =>
    rw [wanted] at runs
    cases runs with
    | stop begins =>
      refine ⟨?_, by simp⟩
      cases begins with
      | nothing => exact ready.typed
      | describe found decoded =>
        rw [List.foldl_cons, List.foldl_nil, noted_types decoded]
        exact typed_setTypes ready.typed ready.isSome found
    | cons step later =>
      cases step with
      | describe found decoded isResult =>
        obtain ⟨fields, reported⟩ := noted_description decoded isResult b
        have typed := typed_setTypes ready.typed ready.isSome found
        obtain ⟨rfl, same⟩ := runs_execute plan
          (⟨Descriptor.setFields fields (Descriptor.setTypes _ b.statement), b.parameters.resolve _⟩ : Binding σ) later
        rw [List.foldl_append, reported, same]
        refine ⟨typed_setFields typed ?_, fun _ => ready.steady found fields⟩
        rw [prepared_setTypes, Option.isSome_map]
        exact ready.isSome

theorem Reparses.ready {parse : Parse} (reparses : Reparses plan b parse) (typed : Typed marks held b.statement)
    {types : List Oid} (assigns : Assigns marks parse types) :
    Ready marks plan (Function.update held parse.name (some ⟨parse.sql, types⟩))
      (⟨Descriptor.setPrepared (some plan.types) b.statement, b.parameters⟩ : Binding σ) := by
  have few : parse.types.length ≤ marks parse.sql := by
    rw [reparses.length typed, reparses.sql]
    exact typed_marks typed
  obtain ⟨front, rest, rfl, resolves⟩ := assigns.resolves few
  have length : front.length = (Descriptor.fragments b.statement).placeholderCount :=
    (List.Forall₂.length_eq resolves).symm.trans (reparses.length typed)
  rw [reparses.types] at resolves
  constructor
  · rw [reparses.name, reparses.sql]
    exact typed_setPrepared typed (.parsed length resolves)
  · exact (reparses.setPrepared _).count
  · rw [types_setPrepared, ← reparses.wanted]
    apply isPreparedFor_iff.2
    exact ⟨plan.types, prepared_setPrepared typed _, Oid.accepts_self _⟩
  · rw [reparses.describe]
    simp

theorem runs_parse {parse : Parse} (typed : Typed marks held b.statement) (reparses : Reparses plan b parse)
    (runs : Runs marks held ([.parse parse] ++ ((if plan.describe then
      [.describe statementTarget (Descriptor.name b.statement).text] else []) ++ [.bind bind, .execute "" 0]))
      replies whole last) :
    Typed marks last (replies.foldl (Binding.noted plan) b).statement ∧
      (whole = true → (replies.foldl (Binding.noted plan) b).Steady) := by
  cases runs with
  | stop begins =>
    cases begins
    exact ⟨typed, by simp⟩
  | cons step later =>
    cases step with
    | parse assigns =>
      obtain ⟨same, -, -⟩ := Tracked.eq_of_bare (Tracked.bare_setPrepared (some plan.types) b.statement)
      rw [← same] at later
      have after := runs_describe (reparses.ready typed assigns) later
      exact after

theorem runs_close {parse : Parse} (typed : Typed marks held b.statement) (reparses : Reparses plan b parse)
    (runs : Runs marks held ([.close statementTarget (Descriptor.name b.statement).text] ++ ([.parse parse] ++
      ((if plan.describe then [.describe statementTarget (Descriptor.name b.statement).text] else []) ++
        [.bind bind, .execute "" 0]))) replies whole last) :
    Typed marks last (replies.foldl (Binding.noted plan) b).statement ∧
      (whole = true → (replies.foldl (Binding.noted plan) b).Steady) := by
  cases runs with
  | stop begins =>
    cases begins
    exact ⟨typed, by simp⟩
  | cons step later =>
    cases step
    obtain ⟨same, -, -⟩ := Tracked.eq_of_bare (Tracked.bare_setPrepared none b.statement)
    have closed := typed_close typed
    rw [← same] at later closed
    have after := runs_parse closed (reparses.setPrepared none) later
    exact after

theorem runs_unit (typed : Typed marks held b.statement) (planned : IsPlanOf b plan)
    (unit : IsUnitOf b plan messages) (runs : Runs marks held messages replies whole last) :
    Typed marks last (replies.foldl (Binding.noted plan) b).statement ∧
      (whole = true → (replies.foldl (Binding.noted plan) b).Steady) := by
  cases unit with
  | @mk parse bind parseName parseSql parseTypes bindName =>
    rw [List.append_assoc, List.append_assoc] at runs
    have reparses (describes : plan.describe = true) : Reparses plan b parse :=
      ⟨planned.count, describes, planned.types, parseName, parseSql, parseTypes⟩
    cases parses : plan.parse with
    | false =>
      have closes : plan.close = false := by rw [planned.close, parses, Bool.false_and]
      have prepared := planned.parse.symm.trans parses
      rw [Bool.not_eq_false'] at prepared
      rw [closes, parses] at runs
      refine runs_describe ⟨typed, planned.count, prepared, fun undescribed => ?_⟩ runs
      simpa [closes, undescribed] using planned.describe
    | true =>
      rw [parses] at runs
      cases closes : plan.close with
      | false =>
        -- A statement that is not parsed is not described either.
        have unparsed : Descriptor.prepared b.statement = none := by
          simpa [closes, parses, Descriptor.isParsed] using planned.close
        have undescribed : Descriptor.isDescribed b.statement = false :=
          (typed_conforms typed).undescribed unparsed
        rw [closes] at runs
        refine runs_parse typed (reparses ?_) runs
        rw [planned.describe, undescribed, Bool.not_false, Bool.or_true]
      | true =>
        rw [closes] at runs
        refine runs_close typed (reparses ?_) runs
        rw [planned.describe, closes, Bool.true_or]

theorem runs_units {planned : List (Binding σ × Plan)} {units : List (List Request)}
    (made : List.Forall₂ (fun p unit => unit? p = some unit) planned units)
    (plans : ∀ p ∈ planned, p.1.plan = .ok p.2) (typed : ∀ p ∈ planned, Typed marks held p.1.statement)
    (apart : planned.Pairwise fun p q => Apart p.1.statement q.1.statement)
    (runs : Runs marks held (pipelineOf units.flatten) replies whole last) :
    ∀ b ∈ sharedOut Binding.noted planned replies, Typed marks last b.statement ∧ (whole = true → b.Steady) := by
  induction made generalizing held replies with
  | nil => simp [sharedOut]
  | @cons p unit planned units first made ih =>
    obtain ⟨messages, isUnit, rfl⟩ := unit?_some first
    obtain ⟨others, apart⟩ := List.pairwise_cons.1 apart
    have isPlan := plan_ok (plans p (by simp))
    have later (held' : Holdings)
        (frame : ∀ other, other ≠ (Descriptor.name p.1.statement).text → held' other = held other) :
        ∀ q ∈ planned, Typed marks held' q.1.statement :=
      fun q among => typed_apart (typed q (by simp [among])) (others q among) frame
    rw [pipelineOf_cons] at runs
    rcases runs.of_append with ⟨rfl, part⟩ | ⟨middle, replies, more, front, back, rfl⟩
    · obtain ⟨next, rest, counts, answered⟩ := part.stopped
      obtain ⟨begun, -⟩ := runs_unit (typed p (by simp)) isPlan isUnit part
      rw [sharedOut_begun isUnit answered]
      intro b member
      refine ⟨?_, by simp⟩
      rcases List.mem_cons.1 member with rfl | inside
      · exact begun
      · obtain ⟨q, among, rfl⟩ := List.mem_map.1 inside
        exact later last (fun other different => part.frame (isUnit.avoids different)) q among
    · obtain ⟨counts, answered⟩ := front.served
      obtain ⟨served, steady⟩ := runs_unit (typed p (by simp)) isPlan isUnit front
      rw [sharedOut_unit noted_of_completes isUnit answered]
      intro b member
      rcases List.mem_cons.1 member with rfl | inside
      · refine ⟨typed_frame served fun other owns => back.frame (avoids_pipeline made fun q among => ?_),
          fun _ => steady rfl⟩
        have owns' := congrFun (Tracked.owns_bare (replies.foldl (Binding.noted p.2) p.1).statement) other
        rw [bare_foldl_noted, Tracked.owns_bare] at owns'
        apply (others q among).symm.ne_name
        rw [owns']
        exact owns
      · apply ih (fun q among => plans q (by simp [among])) _ apart back b inside
        exact later middle fun other different => front.frame (isUnit.avoids different)

end

end ExtendedQuery
