import ExtendedQuery.Proofs.Pipeline.Acknowledged
import ExtendedQuery.Proofs.Session.Run

/-!
# Calls that stay in step

A call that sends a pipeline reads exactly the replies to it, however far the server acknowledges the pipeline
(`InStep`). So the next call starts where the server is, and the records of the statements are as far as the
server has acknowledged them.
-/

namespace ExtendedQuery

open Wire Connection

/-- Where the server acknowledges everything, or refuses a message in the place of one of its replies, the
outcome is what it reports, all that it has sent up to the message that it is ready is read and nothing after
that, and what is recorded belongs to the replies before the error. -/
structure InStep {α : Type} (c : Connection) (requests : List Request) (outcome : Except Error α)
    (result : List Nat → α) (d : Connection) (Recorded : List BackendMessage → Prop) : Prop where
  acknowledged {replies : List BackendMessage} {counts : List Nat} {rest : Bytes} :
    Answered (pipelineOf requests) replies counts → Delivers replies c.incoming rest →
    outcome = .ok (result counts) ∧ Sends c [requests] d ∧ d.incoming = rest ∧ Recorded replies
  refused {begun others later : List BackendMessage} {next : BackendMessage} {counts : List Nat}
      {report : Report} {rest : Bytes} :
    Answered (pipelineOf requests) (begun ++ next :: others) counts → .readyForQuery ∉ later →
    Delivers (begun ++ .errorResponse report :: (later ++ [.readyForQuery])) c.incoming rest →
    outcome = .error (.server report) ∧ Sends c [requests] d ∧ d.incoming = rest ∧ Recorded begun

theorem InStep.mono {α : Type} {c d : Connection} {requests : List Request} {outcome : Except Error α}
    {result : List Nat → α} {Recorded Recorded' : List BackendMessage → Prop}
    (step : InStep c requests outcome result d Recorded) (weaker : ∀ replies, Recorded replies → Recorded' replies) :
    InStep c requests outcome result d Recorded' := by
  constructor
  · intro replies counts rest answered delivered
    obtain ⟨reported, sent, read, recorded⟩ := step.acknowledged answered delivered
    exact ⟨reported, sent, read, weaker _ recorded⟩
  · intro begun others later next counts report rest answered unready delivered
    obtain ⟨reported, sent, read, recorded⟩ := step.refused answered unready delivered
    exact ⟨reported, sent, read, weaker _ recorded⟩

section

variable {σ : Type} [Descriptor σ]

theorem exchange_inStep {bindings : List (Binding σ)} {requests : List Request}
    (sent : requests? bindings = some requests) {c : Connection} (writable : c.writable = true) :
    InStep c requests (exchange bindings c).1 id (exchange bindings c).2.2 fun replies =>
      (exchange bindings c).2.1 = acknowledged bindings replies := by
  obtain ⟨planned, units, bytes, rfl, plans, made, rfl, written, exchanged⟩ := exchange_of_requests sent
  rw [exchanged c writable]
  constructor
  · intro replies counts rest answered delivered
    obtain ⟨d, result, quiet, read⟩ :=
      awaitAll_acknowledged (c := { c with sent := c.sent ++ [bytes] }) made answered delivered
    rw [result]
    refine ⟨rfl, ⟨[bytes], quiet.sent, .cons written .nil⟩, read, ?_⟩
    exact (acknowledged_of_plans plans replies).symm
  · intro begun others later next counts report rest answered unready delivered
    obtain ⟨d, result, quiet, delivered'⟩ :=
      awaitAll_refused (c := { c with sent := c.sent ++ [bytes] }) made answered delivered
    obtain ⟨e, drained, quiet', read⟩ := drain_delivered unready delivered'
    rw [result]
    dsimp only
    rw [resynchronise, drained]
    refine ⟨rfl, ⟨[bytes], (quiet.trans quiet').sent, .cons written .nil⟩, read, ?_⟩
    exact (acknowledged_of_plans plans begun).symm

end

namespace Query

/-- The query and its parameters after the replies to its pipeline. -/
def acknowledged (query : Query) (parameters : Parameters) (replies : List BackendMessage) :
    Query × Parameters :=
  match query, parameters with
  | .single s, .single list =>
    let b := (ExtendedQuery.acknowledged [⟨s, list⟩] replies).headD ⟨s, list⟩
    (.single b.statement, .single b.parameters)
  | .batched s, .single list =>
    let b := (ExtendedQuery.acknowledged [⟨s.reset, list⟩] replies).headD ⟨s.reset, list⟩
    (.batched b.statement, .single b.parameters)
  | .composite statements, .composite lists =>
    let bindings := ExtendedQuery.acknowledged (List.zipWith Binding.mk statements lists) replies
    (.composite (bindings.map (·.statement)), .composite (bindings.map (·.parameters)))
  | _, _ => (query, parameters)

theorem requests_of_pipelines {σ : Type} [Descriptor σ] {bindings : List (Binding σ)} {requests : List Request}
    (sent : ExtendedQuery.pipelines bindings = [requests]) : requests? bindings = some requests := by
  unfold ExtendedQuery.pipelines at sent
  generalize requests? bindings = made at sent ⊢
  cases made with
  | none => cases sent
  | some => cases sent; rfl

theorem execute_inStep {query : Query} {parameters : Parameters} {requests : List Request}
    (sent : query.pipelines parameters = [requests]) {c : Connection} (writable : c.writable = true) :
    InStep c requests (query.execute parameters c).outcome id (query.execute parameters c).connection
      fun replies => ((query.execute parameters c).query, (query.execute parameters c).parameters) =
        query.acknowledged parameters replies := by
  cases pairing query parameters with
  | single s list =>
    apply (exchange_inStep (requests_of_pipelines sent) writable).mono
    intro replies recorded
    rw [acknowledged, ← recorded]
    rfl
  | batched length =>
    rw [pipelines_batched length] at sent
    rw [execute_batched length]
    apply (exchange_inStep (requests_of_pipelines sent) writable).mono
    intro replies recorded
    rw [acknowledged, ← recorded]
    rfl
  | composite length =>
    rw [pipelines_composite length] at sent
    rw [execute_composite length]
    apply (exchange_inStep (requests_of_pipelines sent) writable).mono
    intro replies recorded
    rw [acknowledged, ← recorded]
  | refused e none =>
    rw [none] at sent
    cases sent

end Query

namespace Connection

end Connection

def selectRefused : Bytes :=
  frames [(0x31, []), (0x45, [0x43, 0x34, 0x32, 0, 0]), (0x32, []), (0x5A, [0x49])] ++ [0x5A]

theorem selectRequests_answered :
    Answered (pipelineOf selectRequests)
      ([.parseComplete] ++ .parameterDescription 0 [] :: [.noData, .bindComplete, .emptyQueryResponse,
        .readyForQuery]) [0] := by
  have executed : Answered [.execute "" 0, .sync] ([] ++ [.emptyQueryResponse] ++ ([.readyForQuery] ++ [])) [0] :=
    .execute (by simp) .empty (.other (by simp) .sync .nil)
  have decoded : decodeOids 0 [] = .ok [] := by rfl
  exact .other (by simp) .parse (.other (by simp) (.describe decoded .noData) (.other (by simp) .bind executed))

theorem selectRefused_delivers :
    Delivers ([.parseComplete] ++ .errorResponse ⟨[0x43, 0x34, 0x32, 0, 0]⟩ :: ([.bindComplete] ++ [.readyForQuery]))
      selectRefused [0x5A] := delivers_frames (by decide) rfl [0x5A]

end ExtendedQuery
