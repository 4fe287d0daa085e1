import ExtendedQuery.Proofs.Pipeline.Exchange
import ExtendedQuery.Proofs.Wire.Frames

/-!
# Servers that acknowledge everything

A server that acknowledges each message of a pipeline keeps the texts that it was sent under their names
(`Texts.after`), whatever types and results it reports. An insert whose records are backed by these texts
(`BatchedStatement.Backed`) binds its parameters to its own text (`IsUnitOf.reaches`), and its records are
backed again after the exchange (`exchangeOne_answered`).
-/

namespace ExtendedQuery

open Wire Connection

abbrev Texts := String → Option String

namespace Texts

def after (texts : Texts) : FrontendMessage → Texts
  | .parse m => Function.update texts m.name (some m.sql)
  | .close target name => if target = statementTarget then Function.update texts name none else texts
  | _ => texts

def afterAll (texts : Texts) (messages : List FrontendMessage) : Texts := messages.foldl after texts

@[simp] theorem afterAll_nil (texts : Texts) : texts.afterAll [] = texts := rfl

@[simp] theorem afterAll_cons (texts : Texts) (message : FrontendMessage) (later : List FrontendMessage) :
    texts.afterAll (message :: later) = (texts.after message).afterAll later := rfl

theorem afterAll_append (texts : Texts) (a b : List FrontendMessage) :
    texts.afterAll (a ++ b) = (texts.afterAll a).afterAll b := List.foldl_append

end Texts

/-- The replies to messages none of which is refused, and the rows that each execution has affected. -/
inductive Answered : List FrontendMessage → List BackendMessage → (affected : List Nat) → Prop
  | nil : Answered [] [] []
  | execute {portal : String} {limit : UInt32} {messages : List FrontendMessage}
      {rows later : List BackendMessage} {ending : BackendMessage} {affected : Nat} {counts : List Nat} :
      (∀ row ∈ rows, IsRow row) → Completes rows.length ending affected → Answered messages later counts →
      Answered (.execute portal limit :: messages) (rows ++ [ending] ++ later) (affected :: counts)
  | other {message : FrontendMessage} {messages : List FrontendMessage} {replies later : List BackendMessage}
      {counts : List Nat} : (∀ portal limit, message ≠ .execute portal limit) → Acknowledges message replies →
      Answered messages later counts → Answered (message :: messages) (replies ++ later) counts

theorem Answered.of_append {a b : List FrontendMessage} {replies : List BackendMessage} {counts : List Nat}
    (answered : Answered (a ++ b) replies counts) :
    ∃ first second some others, Answered a first some ∧ Answered b second others ∧
      replies = first ++ second ∧ counts = some ++ others := by
  induction a generalizing replies counts with
  | nil => exact ⟨[], replies, [], counts, .nil, answered, rfl, rfl⟩
  | cons message a ih =>
    cases answered with
    | @execute _ _ _ rows _ ending affected _ each completes later =>
      obtain ⟨first, second, some, others, front, back, rfl, rfl⟩ := ih later
      exact ⟨rows ++ [ending] ++ first, second, affected :: some, others, .execute each completes front, back,
        by simp, rfl⟩
    | @other _ _ replies _ _ different acknowledges later =>
      obtain ⟨first, second, some, others, front, back, rfl, rfl⟩ := ih later
      exact ⟨replies ++ first, second, some, others, .other different acknowledges front, back, by simp, rfl⟩

namespace BatchedStatement

structure Backed (s : BatchedStatement) (texts : Texts) : Prop where
  positive : 0 < s.rows
  ordered : s.shapes.Ordered
  named : s.baseName.isUnnamed = false → ∀ rows, 0 < rows → (s.preparedAt rows).isSome →
    texts (s.baseName.ofRows rows).text = some (s.sqlOf rows)
  unnamed : s.baseName.isUnnamed = true → s.shapes = []

theorem Agrees.backed {held : Holdings} {s : BatchedStatement} (agrees : s.Agrees held) :
    s.Backed fun name => (held name).map (·.sql) := by
  refine ⟨agrees.sound.positive, agrees.sound.ordered, fun named rows positive parsed => ?_, agrees.unnamed⟩
  have reflects := agrees.named named rows positive
  generalize s.preparedAt rows = recorded at reflects parsed
  generalize held (s.baseName.ofRows rows).text = statement at reflects ⊢
  cases reflects with
  | missing => cases parsed
  | held => rfl

theorem Backed.setPrepared {s : BatchedStatement} {texts : Texts} (backed : s.Backed texts)
    {types : Option (List Oid)} {text : Option String} (same : types.isSome → text = some (String.ofList s.sql)) :
    (s.setPrepared types).Backed (Function.update texts s.name.text text) := by
  obtain ⟨base, baseName, -, rows, -⟩ := eq_of_bare (bare_setPrepared types s)
  refine ⟨rows ▸ backed.positive, ordered_setPrepared backed.ordered types, ?_, ?_⟩
  · rw [baseName]
    intro named r positive
    rw [sqlOf_of_bare (bare_setPrepared types s)]
    exact forall_rows_setPrepared (R := fun rows recorded now => recorded.isSome → now = some (s.sqlOf rows))
      named backed.ordered backed.positive (backed.named named) same positive
  · rw [baseName]
    intro unnamed
    exact shapes_setPrepared_of_unnamed unnamed (backed.unnamed unnamed) types

theorem Backed.setTypes {s : BatchedStatement} {texts : Texts} (backed : s.Backed texts) (types : List Oid) :
    (s.setTypes types).Backed texts := by
  refine ⟨backed.positive, ?_, fun named r positive parsed => ?_, fun unnamed => ?_⟩
  · rw [shapes_setTypes]
    exact backed.ordered.mapShape _ _
  · refine backed.named named r positive ?_
    rw [preparedAt_setTypes] at parsed
    split at parsed
    · rwa [Option.isSome_map] at parsed
    · exact parsed
  · rw [shapes_setTypes, backed.unnamed unnamed]
    rfl

theorem Backed.setFields {s : BatchedStatement} {texts : Texts} (backed : s.Backed texts)
    (fields : List Field) : (s.setFields fields).Backed texts := by
  obtain ⟨base, baseName, -, rows, -⟩ := eq_of_bare (bare_setFields fields s)
  refine ⟨rows ▸ backed.positive, ordered_setFields backed.ordered fields, ?_, ?_⟩
  · rw [baseName]
    intro named r positive parsed
    rw [preparedAt_setFields backed.ordered] at parsed
    rw [sqlOf_of_bare (bare_setFields fields s), backed.named named r positive parsed]
  · rw [baseName]
    intro unnamed
    exact shapes_setFields_of_unnamed unnamed (backed.unnamed unnamed) fields

theorem Backed.of_shapes {s t : BatchedStatement} {texts : Texts} (backed : s.Backed texts)
    (positive : 0 < t.rows) (base : t.base = s.base) (baseName : t.baseName = s.baseName)
    (shapes : t.shapes = s.shapes) : t.Backed texts := by
  refine ⟨positive, shapes ▸ backed.ordered, fun named r positive parsed => ?_, fun unnamed => ?_⟩
  · rw [baseName] at named ⊢
    rw [preparedAt, shapes] at parsed
    rw [backed.named named r positive parsed, sqlOf, sqlOf, arity, arity, base]
  · rw [baseName] at unnamed
    rw [shapes, backed.unnamed unnamed]

theorem Backed.reset {s : BatchedStatement} {texts : Texts} (backed : s.Backed texts) : s.reset.Backed texts := by
  obtain ⟨base, baseName, shapes⟩ := s.reset_same
  exact backed.of_shapes (s.reset_single.1 ▸ Nat.one_pos) base baseName shapes

theorem Backed.reaches {s : BatchedStatement} {texts : Texts} (backed : s.Backed texts)
    {wanted : List Oid} (prepared : Descriptor.isPreparedFor wanted s = true) :
    texts s.name.text = some (String.ofList s.sql) := by
  have parsed : s.prepared.isSome := by
    cases declared : Descriptor.prepared s with
    | none =>
      rw [Descriptor.isPreparedFor, declared] at prepared
      cases prepared
    | some types => exact Option.isSome_of_eq_some declared
  cases unnamed : s.baseName.isUnnamed with
  | true =>
    -- Nothing is recorded of the unnamed statement.
    rw [prepared_eq, preparedAt, backed.unnamed unnamed] at parsed
    cases parsed
  | false => exact backed.named unnamed s.rows backed.positive parsed

end BatchedStatement

theorem Records.backed {b b' : Binding BatchedStatement} {message : FrontendMessage}
    {awaited : List Awaited} {replies : List BackendMessage} (stage : Stage message awaited)
    (records : Records b message replies b')
    (concerns : Concerns b.statement.name.text (String.ofList b.statement.sql) message) {texts : Texts}
    (backed : b.statement.Backed texts) :
    Tracked.bare b'.statement = Tracked.bare b.statement ∧ b'.statement.Backed (texts.after message) := by
  cases stage with
  | close =>
    cases records
    cases concerns
    rw [Texts.after, if_pos rfl]
    refine ⟨Tracked.bare_setPrepared _ _, ?_⟩
    change (b.statement.setPrepared none).Backed _
    exact backed.setPrepared fun parsed => by cases parsed
  | @parse m =>
    cases records
    rw [Texts.after, concerns.1, concerns.2]
    refine ⟨Tracked.bare_setPrepared _ _, ?_⟩
    change (b.statement.setPrepared (some m.types)).Backed _
    exact backed.setPrepared fun _ => rfl
  | describe =>
    cases records
    refine ⟨?_, (backed.setTypes _).setFields _⟩
    rw [Tracked.bare_setFields, Tracked.bare_setTypes]
  | bind =>
    cases records
    exact ⟨rfl, backed⟩

theorem await_answered {messages : List FrontendMessage} {awaited : List Awaited}
    (stages : Stages messages awaited) {b : Binding BatchedStatement} {texts : Texts}
    (concerns : ∀ m ∈ messages, Concerns b.statement.name.text (String.ofList b.statement.sql) m)
    (backed : b.statement.Backed texts) {replies more : List BackendMessage} {counts : List Nat}
    {c : Connection} {rest : Bytes} (answered : Answered messages replies counts)
    (delivered : Delivers (replies ++ more) c.incoming rest) :
    ∃ b' d, b.await awaited c = (.ok (), b', d) ∧ counts = [] ∧ c.Quiet d ∧ Delivers more d.incoming rest ∧
      Tracked.bare b'.statement = Tracked.bare b.statement ∧
      b'.statement.Backed (texts.afterAll messages) := by
  induction stages generalizing b texts replies c with
  | nil =>
    cases answered
    exact ⟨b, c, rfl, rfl, .refl c, delivered, rfl, backed⟩
  | @cons message messages awaited later stage stages ih =>
    cases answered with
    | execute => cases stage
    | other _ acknowledges answered =>
      rw [List.append_assoc] at delivered
      obtain ⟨b', d, records, quiet, delivered', continues⟩ :=
        await_acknowledged stage acknowledges b delivered
      obtain ⟨bare, backed'⟩ := records.backed stage (concerns message (by simp)) backed
      obtain ⟨name, text, -⟩ := Tracked.eq_of_bare bare
      have concerns' := fun m member => concerns m (List.mem_cons_of_mem _ member)
      change b'.statement.name = b.statement.name at name
      change b'.statement.sql = b.statement.sql at text
      rw [← name, ← text] at concerns'
      obtain ⟨b'', e, result, rfl, quiet', delivered'', bare', backed''⟩ :=
        ih concerns' backed' answered delivered'
      exact ⟨b'', e, (continues later).trans result, rfl, quiet.trans quiet', delivered'', bare'.trans bare,
        backed''⟩

section

variable {s : BatchedStatement} {list : ParameterList}

theorem IsUnitOf.reaches {plan : Plan} {messages : List FrontendMessage}
    (unit : IsUnitOf ⟨s, list⟩ plan messages) (planned : IsPlanOf ⟨s, list⟩ plan) {texts : Texts}
    (backed : s.Backed texts) :
    ∃ front bind, messages = front ++ [.bind bind, .execute "" 0] ∧ (∀ m ∈ front, ∀ b, m ≠ .bind b) ∧
      bind.statement = s.name.text ∧ texts.afterAll front s.name.text = some (String.ofList s.sql) ∧
      bind.formats = list.formats ∧ list.wireValues = .ok bind.values := by
  cases unit with
  | @mk parse bind parseName parseSql _ bindName bindFormats bindValues =>
    refine ⟨_, bind, rfl, ?_, bindName, ?_, bindFormats.trans planned.formats, bindValues ▸ planned.values⟩
    · intro m member b same
      subst same
      simp at member
    · change parse.name = s.name.text at parseName
      change parse.sql = String.ofList s.sql at parseSql
      change texts.afterAll ((if plan.close then [.close statementTarget s.name.text] else []) ++ _ ++
        (if plan.describe then [.describe statementTarget s.name.text] else [])) s.name.text = _
      cases parses : plan.parse with
      | true =>
        cases plan.close <;> cases plan.describe <;>
          simp [Texts.after, parseName, parseSql, Function.update_self]
      | false =>
        have close : plan.close = false := by rw [planned.close, parses, Bool.false_and]
        have prepared := planned.parse
        rw [parses, eq_comm, Bool.not_eq_false'] at prepared
        have reached := backed.reaches prepared
        cases plan.describe <;> simp [close, Texts.after, reached]

theorem unit_of_requests {requests : List Request} (sent : requests? [⟨s, list⟩] = some requests) :
    ∃ plan messages bytes, IsPlanOf ⟨s, list⟩ plan ∧ IsUnitOf ⟨s, list⟩ plan messages ∧
      requests.map (·.message) = messages ∧ FrontendMessage.writeAll? (pipelineOf requests) [] = some bytes ∧
      ∀ c : Connection, c.writable = true → exchange [⟨s, list⟩] c =
        match awaitAll [(⟨s, list⟩, plan)] { c with sent := c.sent ++ [bytes] } with
        | (outcome, bindings, d) => ((d.resynchronise outcome).1, bindings, (d.resynchronise outcome).2) := by
  obtain ⟨planned, units, bytes, same, plans, made, rfl, written, exchanged⟩ := exchange_of_requests sent
  cases made with
  | nil => cases same
  | @cons p unit planned units first later =>
    obtain ⟨b, plan⟩ := p
    rw [List.map_cons] at same
    obtain ⟨rfl, none⟩ := List.cons.inj same
    rw [List.map_eq_nil_iff] at none
    subst none
    cases later
    obtain ⟨messages, unit, rfl⟩ := unit?_some first
    refine ⟨plan, messages, bytes, plan_ok (plans (⟨s, list⟩, plan) (by simp)), unit, ?_, written,
      exchanged⟩
    simp [Binding.request, Function.comp_def]

theorem awaitUnit_answered {plan : Plan} {messages : List FrontendMessage}
    (unit : IsUnitOf ⟨s, list⟩ plan messages) {texts : Texts} (backed : s.Backed texts)
    {replies more : List BackendMessage} {counts : List Nat} {c : Connection} {rest : Bytes}
    (answered : Answered messages replies counts) (delivered : Delivers (replies ++ more) c.incoming rest) :
    ∃ affected b d, counts = [affected] ∧ awaitUnit (⟨s, list⟩, plan) c = (.ok affected, b, d) ∧ c.Quiet d ∧
      Delivers more d.incoming rest ∧ Tracked.bare b.statement = Tracked.bare s ∧
      b.statement.Backed (texts.afterAll messages) := by
  have concerns := unit.concerns
  obtain ⟨front, rfl, stages⟩ := unit.stages
  obtain ⟨first, second, some, others, before, last, rfl, rfl⟩ := answered.of_append
  rw [List.append_assoc] at delivered
  obtain ⟨b, d, result, rfl, quiet, delivered', bare, backed'⟩ :=
    await_answered stages (fun m member => concerns m (List.mem_append_left _ member)) backed before delivered
  cases last with
  | other different => exact absurd rfl (different "" 0)
  | @execute _ _ _ rows _ ending affected _ each completes none =>
    cases none
    rw [List.append_nil, List.append_assoc] at delivered'
    rw [← Nat.zero_add rows.length] at completes
    obtain ⟨e, completed, quiet', delivered''⟩ := awaitCompletion_completes each completes delivered'
    refine ⟨affected, b, e, rfl, ?_, quiet.trans quiet', delivered'', bare, ?_⟩
    · rw [awaitUnit, result]
      dsimp only
      rw [completed]
    · rw [Texts.afterAll_append]
      exact backed'

theorem exchangeOne_answered {requests : List Request} (sent : requests? [⟨s, list⟩] = some requests)
    {texts : Texts} (backed : s.Backed texts) {replies : List BackendMessage} {counts : List Nat}
    {c : Connection} {rest : Bytes} (writable : c.writable = true)
    (answered : Answered (pipelineOf requests) replies counts) (delivered : Delivers replies c.incoming rest) :
    ∃ affected b d bytes, counts = [affected] ∧ exchangeOne s list c = (.ok [affected], b, d) ∧
      FrontendMessage.writeAll? (pipelineOf requests) [] = some bytes ∧ d.sent = c.sent ++ [bytes] ∧
      d.writable = true ∧ d.incoming = rest ∧ Tracked.bare b.statement = Tracked.bare s ∧
      b.statement.Backed (texts.afterAll (pipelineOf requests)) := by
  obtain ⟨plan, messages, bytes, -, unit, rfl, written, exchanged⟩ := unit_of_requests sent
  obtain ⟨first, second, some, others, before, last, rfl, rfl⟩ := answered.of_append
  obtain ⟨affected, b, d, rfl, result, quiet, delivered', bare, backed'⟩ :=
    awaitUnit_answered (c := { c with sent := c.sent ++ [bytes] }) unit backed before delivered
  cases last with
  | other _ acknowledges none =>
    cases none
    cases acknowledges
    obtain ⟨e, received, quiet', delivered''⟩ := receiveReply_delivered delivered' (by simp)
    have both := quiet.trans quiet'
    refine ⟨affected, b, e, bytes, rfl, ?_, written, both.sent, both.writable.trans writable, ?_, bare, ?_⟩
    · rw [exchangeOne, exchanged c writable, awaitAll_cons, result]
      dsimp only
      rw [awaitAll, awaitReady, received]
      rfl
    · cases delivered''
      rfl
    · rw [Texts.afterAll_append]
      exact backed'

end

end ExtendedQuery
