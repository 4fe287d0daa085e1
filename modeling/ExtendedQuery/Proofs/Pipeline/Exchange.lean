import ExtendedQuery.Proofs.Pipeline.Requests

/-!
# Replies that are recorded

The replies to a pipeline are read message by message. A message that the server acknowledges is recorded
(`await_acknowledged`), and one that it refuses ends the reading, with what was said before the error
recorded (`await_refused`). So the records agree with the server after each message, and after an exchange
(`exchange_runs`), whichever messages the server refuses.
-/

namespace ExtendedQuery

open Wire Connection

variable {σ : Type} [Descriptor σ]

/-! ## The replies to one message -/

inductive Stage : FrontendMessage → List Awaited → Prop
  | close {name : String} : Stage (.close statementTarget name) [.closed]
  | parse {m : Parse} : Stage (.parse m) [.parsed m.types]
  | describe {name : String} : Stage (.describe statementTarget name) [.parameterTypes, .resultFields]
  | bind {m : Bind} : Stage (.bind m) [.bound]

inductive Records (b : Binding σ) : FrontendMessage → List BackendMessage → Binding σ → Prop
  | close {target : UInt8} {name : String} {replies : List BackendMessage} :
      Records b (.close target name) replies { b with statement := Descriptor.setPrepared none b.statement }
  | parse {m : Parse} {replies : List BackendMessage} :
      Records b (.parse m) replies { b with statement := Descriptor.setPrepared (some m.types) b.statement }
  | describe {target : UInt8} {name : String} {count : UInt16} {body : Bytes} {types : List Oid}
      {fields : List Field} {result : BackendMessage} : decodeOids count body = .ok types →
      Records b (.describe target name) [.parameterDescription count body, result]
        ⟨Descriptor.setFields fields (Descriptor.setTypes types b.statement), b.parameters.resolve types⟩
  | bind {m : Bind} {replies : List BackendMessage} : Records b (.bind m) replies b

inductive RecordsPart (held : Holdings) (b : Binding σ) : FrontendMessage → Binding σ → Prop
  | nothing {message : FrontendMessage} : RecordsPart held b message b
  | describe {target : UInt8} {name : String} {statement : Held} : held name = some statement →
      RecordsPart held b (.describe target name)
        ⟨Descriptor.setTypes statement.types b.statement, b.parameters.resolve statement.types⟩

theorem await_cons {b b' : Binding σ} {awaited : Awaited} {reply : BackendMessage} {c d : Connection}
    (received : c.receiveReply = (.ok reply, d)) (recorded : b.record awaited reply = .ok b')
    (later : List Awaited) : b.await (awaited :: later) c = b'.await later d := by
  rw [Binding.await, received]
  dsimp only
  rw [recorded]

theorem await_error {b : Binding σ} {awaited : Awaited} {e : Error} {c d : Connection}
    (received : c.receiveReply = (.error e, d)) (later : List Awaited) :
    b.await (awaited :: later) c = (.error e, b, d) := by
  rw [Binding.await, received]

theorem record_parameterTypes {count : UInt16} {body : Bytes} {types : List Oid}
    (decoded : decodeOids count body = .ok types) (b : Binding σ) :
    b.record .parameterTypes (.parameterDescription count body) =
      .ok ⟨Descriptor.setTypes types b.statement, b.parameters.resolve types⟩ := by
  simp only [Binding.record, decoded]
  rfl

theorem record_resultFields {result : BackendMessage} (isResult : IsResult result) (b : Binding σ) :
    ∃ fields, b.record .resultFields result =
      .ok { b with statement := Descriptor.setFields fields b.statement } := by
  cases isResult with
  | noData => exact ⟨[], rfl⟩
  | @fields count body fields decoded =>
    refine ⟨fields, ?_⟩
    simp only [Binding.record, decoded]
    rfl

theorem await_acknowledged {message : FrontendMessage} {awaited : List Awaited}
    (stage : Stage message awaited) {replies more : List BackendMessage}
    (acknowledges : Acknowledges message replies) (b : Binding σ) {c : Connection} {rest : Bytes}
    (delivered : Delivers (replies ++ more) c.incoming rest) :
    ∃ b' d, Records b message replies b' ∧ c.Quiet d ∧ Delivers more d.incoming rest ∧
      ∀ later, b.await (awaited ++ later) c = b'.await later d := by
  cases stage with
  | close =>
    cases acknowledges
    obtain ⟨d, received, quiet, delivered⟩ := receiveReply_delivered delivered (by simp)
    exact ⟨_, d, .close, quiet, delivered, await_cons received rfl⟩
  | parse =>
    cases acknowledges
    obtain ⟨d, received, quiet, delivered⟩ := receiveReply_delivered delivered (by simp)
    exact ⟨_, d, .parse, quiet, delivered, await_cons received rfl⟩
  | describe =>
    cases acknowledges with
    | @describe _ _ count body types result decoded isResult =>
      obtain ⟨d, received, quiet, delivered'⟩ := receiveReply_delivered delivered (by simp)
      have noError : ∀ report, result ≠ .errorResponse report := by
        rintro report rfl
        cases isResult
      obtain ⟨e, received', quiet', delivered''⟩ := receiveReply_delivered delivered' noError
      obtain ⟨fields, recorded⟩ := record_resultFields isResult
        (⟨Descriptor.setTypes types b.statement, b.parameters.resolve types⟩ : Binding σ)
      refine ⟨⟨Descriptor.setFields fields (Descriptor.setTypes types b.statement),
        b.parameters.resolve types⟩, e, .describe decoded, quiet.trans quiet', delivered'', fun later => ?_⟩
      exact (await_cons received (record_parameterTypes decoded b) _).trans
        (await_cons received' recorded later)
  | bind =>
    cases acknowledges
    obtain ⟨d, received, quiet, delivered⟩ := receiveReply_delivered delivered (by simp)
    exact ⟨_, d, .bind, quiet, delivered, await_cons received rfl⟩

theorem Stage.ne_nil {message : FrontendMessage} {awaited : List Awaited} (stage : Stage message awaited) :
    ∃ first others, awaited = first :: others := by
  cases stage <;> exact ⟨_, _, rfl⟩

theorem await_refused {message : FrontendMessage} {awaited : List Awaited}
    (stage : Stage message awaited) {held : Holdings} {begun more : List BackendMessage} {report : Report}
    (begins : Begins held message begun) (b : Binding σ) {c : Connection} {rest : Bytes}
    (delivered : Delivers (begun ++ .errorResponse report :: more) c.incoming rest) :
    ∃ b' d, RecordsPart held b message b' ∧ c.Quiet d ∧ Delivers more d.incoming rest ∧
      ∀ later, b.await (awaited ++ later) c = (.error (.server report), b', d) := by
  cases begins with
  | nothing =>
    obtain ⟨d, received, quiet, delivered⟩ := receiveReply_error delivered
    obtain ⟨first, others, rfl⟩ := stage.ne_nil
    exact ⟨b, d, .nothing, quiet, delivered, fun later => await_error received _⟩
  | describe found decoded =>
    cases stage
    obtain ⟨d, received, quiet, delivered'⟩ := receiveReply_delivered delivered (by simp)
    obtain ⟨e, received', quiet', delivered''⟩ := receiveReply_error delivered'
    refine ⟨_, e, .describe found, quiet.trans quiet', delivered'', fun later => ?_⟩
    exact (await_cons received (record_parameterTypes decoded b) _).trans (await_error received' later)
  | execute => cases stage

/-! ## The replies to one statement -/

inductive Stages : List FrontendMessage → List Awaited → Prop
  | nil : Stages [] []
  | cons {message : FrontendMessage} {messages : List FrontendMessage} {awaited later : List Awaited} :
      Stage message awaited → Stages messages later → Stages (message :: messages) (awaited ++ later)

theorem Stages.append {a b : List FrontendMessage} {x y : List Awaited} (first : Stages a x)
    (second : Stages b y) : Stages (a ++ b) (x ++ y) := by
  induction first with
  | nil => exact second
  | cons stage _ ih =>
    rw [List.cons_append, List.append_assoc]
    exact .cons stage ih

theorem Stages.single {message : FrontendMessage} {awaited : List Awaited} (stage : Stage message awaited) :
    Stages [message] awaited := by
  rw [← List.append_nil awaited]
  exact .cons stage .nil

theorem Stages.optional {message : FrontendMessage} {awaited : List Awaited} (stage : Stage message awaited)
    (present : Bool) : Stages (if present then [message] else []) (if present then awaited else []) := by
  cases present
  · exact .nil
  · exact .single stage

theorem Stages.sync_not_mem {messages : List FrontendMessage} {awaited : List Awaited}
    (stages : Stages messages awaited) : .sync ∉ messages := by
  induction stages with
  | nil => simp
  | cons stage _ ih =>
    rw [List.mem_cons, not_or]
    refine ⟨?_, ih⟩
    rintro rfl
    cases stage

theorem IsUnitOf.stages {b : Binding σ} {plan : Plan} {messages : List FrontendMessage}
    (unit : IsUnitOf b plan messages) :
    ∃ front, messages = front ++ [.execute "" 0] ∧ Stages front plan.awaited := by
  cases unit with
  | @mk parse bind parseName parseSql parseTypes bindName =>
    have close : Stage (.close statementTarget (Descriptor.name b.statement).text) [.closed] := .close
    have parsed : Stage (.parse parse) [.parsed plan.types] := parseTypes ▸ .parse
    have describe : Stage (.describe statementTarget (Descriptor.name b.statement).text)
        [.parameterTypes, .resultFields] := .describe
    have bound : Stage (.bind bind) [.bound] := .bind
    refine ⟨_, ?_, (((Stages.optional close plan.close).append (.optional parsed plan.parse)).append
      (.optional describe plan.describe)).append (.single bound)⟩
    rw [List.append_assoc _ [FrontendMessage.bind bind]]
    rfl

theorem sync_not_mem_units {planned : List (Binding σ × Plan)} {units : List (List Request)}
    (made : List.Forall₂ (fun p unit => unit? p = some unit) planned units) :
    .sync ∉ units.flatten.map (·.message) := by
  induction made with
  | nil => simp
  | @cons p _ _ _ first _ ih =>
    obtain ⟨messages, isUnit, rfl⟩ := unit?_some first
    rw [List.flatten_cons, List.map_append, List.mem_append, not_or]
    refine ⟨fun member => ?_, ih⟩
    rw [List.map_map] at member
    obtain ⟨m, inside, same⟩ := List.mem_map.1 member
    change m = .sync at same
    subst same
    exact isUnit.concerns _ inside

/-! ## The completion of an execution -/

theorem awaitCompletion_of_receiveReply {c d : Connection} {received : Except Error BackendMessage}
    (read : c.receiveReply = (received, d)) (rows : Nat) :
    c.awaitCompletion rows =
      match received with
      | .error e => (.error e, d)
      | .ok (.dataRow _ _) => d.awaitCompletion (rows + 1)
      | .ok (.commandComplete tag) => (.ok (rowsAffected tag), d)
      | .ok .emptyQueryResponse => (.ok 0, d)
      | .ok .portalSuspended => (.ok rows, d)
      | .ok reply => (.error (.protocol (reply.unexpectedIn .execute)), d) := by
  rw [awaitCompletion]
  split <;> rename_i read' <;> rw [read] at read' <;> cases read'
  · rfl
  · rfl
  · rfl
  · rfl
  · rfl
  · rename_i reply notRow notComplete notEmpty notSuspended
    cases reply with
    | dataRow columns body => exact absurd rfl (notRow columns body)
    | commandComplete tag => exact absurd rfl (notComplete tag)
    | emptyQueryResponse => exact absurd rfl notEmpty
    | portalSuspended => exact absurd rfl notSuspended
    | _ => rfl

theorem awaitCompletion_completes {rows : List BackendMessage} (each : ∀ row ∈ rows, IsRow row)
    {ending : BackendMessage} {more : List BackendMessage} {count affected : Nat}
    (completes : Completes (count + rows.length) ending affected) {c : Connection} {rest : Bytes}
    (delivered : Delivers (rows ++ ending :: more) c.incoming rest) :
    ∃ d, c.awaitCompletion count = (.ok affected, d) ∧ c.Quiet d ∧ Delivers more d.incoming rest := by
  induction rows generalizing c count with
  | nil =>
    have noError : ∀ report, ending ≠ .errorResponse report := by
      rintro report rfl
      cases completes
    obtain ⟨d, received, quiet, delivered⟩ := receiveReply_delivered delivered noError
    refine ⟨d, ?_, quiet, delivered⟩
    rw [awaitCompletion_of_receiveReply received]
    cases completes <;> rfl
  | cons row rows ih =>
    obtain ⟨columns, body, rfl⟩ := each row (by simp)
    obtain ⟨d, received, quiet, delivered⟩ := receiveReply_delivered delivered (by simp)
    have completes' : Completes (count + 1 + rows.length) ending affected := by
      rw [List.length_cons] at completes
      rwa [Nat.add_assoc, Nat.add_comm 1]
    obtain ⟨e, result, quiet', delivered⟩ := ih (fun r member => each r (by simp [member])) completes' delivered
    exact ⟨e, (awaitCompletion_of_receiveReply received count).trans result, quiet.trans quiet', delivered⟩

theorem awaitCompletion_refused {rows : List BackendMessage} (each : ∀ row ∈ rows, IsRow row)
    {report : Report} {more : List BackendMessage} (count : Nat) {c : Connection} {rest : Bytes}
    (delivered : Delivers (rows ++ .errorResponse report :: more) c.incoming rest) :
    ∃ d, c.awaitCompletion count = (.error (.server report), d) ∧ c.Quiet d ∧
      Delivers more d.incoming rest := by
  induction rows generalizing c count with
  | nil =>
    obtain ⟨d, received, quiet, delivered⟩ := receiveReply_error delivered
    refine ⟨d, ?_, quiet, delivered⟩
    rw [awaitCompletion_of_receiveReply received]
  | cons row rows ih =>
    obtain ⟨columns, body, rfl⟩ := each row (by simp)
    obtain ⟨d, received, quiet, delivered⟩ := receiveReply_delivered delivered (by simp)
    obtain ⟨e, result, quiet', delivered⟩ := ih (fun r member => each r (by simp [member])) (count + 1) delivered
    exact ⟨e, (awaitCompletion_of_receiveReply received count).trans result, quiet.trans quiet', delivered⟩

def awaitUnit (p : Binding σ × Plan) (c : Connection) : Except Error Nat × Binding σ × Connection :=
  match p.1.await p.2.awaited c with
  | (.error e, b, d) => (.error e, b, d)
  | (.ok (), b, d) => ((d.awaitCompletion 0).1, b, (d.awaitCompletion 0).2)

theorem awaitAll_cons (p : Binding σ × Plan) (later : List (Binding σ × Plan)) (c : Connection) :
    awaitAll (p :: later) c =
      match awaitUnit p c with
      | (.error e, b, d) => (.error e, b :: later.map (·.1), d)
      | (.ok affected, b, d) =>
        match awaitAll later d with
        | (outcome, bindings, d) => (outcome.map (affected :: ·), b :: bindings, d) := by
  obtain ⟨b, plan⟩ := p
  rw [awaitAll, awaitUnit]
  dsimp only
  generalize b.await plan.awaited c = read
  obtain ⟨outcome, b, c⟩ := read
  cases outcome with
  | error e => rfl
  | ok =>
    dsimp only
    generalize c.awaitCompletion 0 = completion
    obtain ⟨outcome, c⟩ := completion
    cases outcome <;> rfl

section

variable [Tracked σ]

theorem Records.agrees {held held' : Holdings} {b b' : Binding σ} {r : Request}
    {replies : List BackendMessage} (records : Records b r.message replies b')
    (accepts : Accepts held r.message replies held')
    (concerns : Concerns (Descriptor.name b.statement).text (String.ofList (Descriptor.sql b.statement))
      r.message)
    (expects : Expects held r) (count : r.oids.length = (Descriptor.fragments b.statement).placeholderCount)
    (agrees : Tracked.Agrees held b.statement) :
    Tracked.bare b'.statement = Tracked.bare b.statement ∧ Tracked.Agrees held' b'.statement := by
  obtain ⟨sql, oids, message⟩ := r
  dsimp only at records accepts concerns count
  cases records with
  | close =>
    cases accepts
    cases concerns
    exact ⟨Tracked.bare_setPrepared _ _, Tracked.agrees_close agrees⟩
  | parse =>
    cases accepts with
    | parse _ resolves =>
      rw [concerns.1, concerns.2]
      exact ⟨Tracked.bare_setPrepared _ _, Tracked.agrees_parse agrees resolves⟩
  | describe decoded =>
    cases accepts with
    | describe found decoded' =>
      rw [decoded] at decoded'
      cases decoded'
      cases concerns
      obtain ⟨types, found', resolves⟩ := expects
      rw [found'] at found
      cases found
      have length := (List.Forall₂.length_eq resolves).symm.trans count
      refine ⟨?_, Tracked.agrees_fields (Tracked.agrees_types agrees found' length)⟩
      rw [Tracked.bare_setFields, Tracked.bare_setTypes]
  | bind =>
    cases accepts
    exact ⟨rfl, agrees⟩

theorem RecordsPart.agrees {held : Holdings} {b b' : Binding σ} {r : Request}
    (records : RecordsPart held b r.message b')
    (concerns : Concerns (Descriptor.name b.statement).text (String.ofList (Descriptor.sql b.statement))
      r.message)
    (expects : Expects held r) (count : r.oids.length = (Descriptor.fragments b.statement).placeholderCount)
    (agrees : Tracked.Agrees held b.statement) :
    Tracked.bare b'.statement = Tracked.bare b.statement ∧ Tracked.Agrees held b'.statement := by
  obtain ⟨sql, oids, message⟩ := r
  dsimp only at records concerns count
  cases records with
  | nothing => exact ⟨rfl, agrees⟩
  | describe found =>
    cases concerns
    obtain ⟨types, found', resolves⟩ := expects
    rw [found'] at found
    cases found
    have length := (List.Forall₂.length_eq resolves).symm.trans count
    exact ⟨Tracked.bare_setTypes _ _, Tracked.agrees_types agrees found' length⟩

def Ends {α : Type} (server : Server) (outcome : Except Error α) : Prop :=
  server.skipping = false ∧ (∃ a, outcome = .ok a) ∨
    server.skipping = true ∧ ∃ report, outcome = .error (.server report)

theorem await_stages {sql : String} {oids : List Oid} {messages : List FrontendMessage}
    {awaited : List Awaited} (stages : Stages messages awaited) {b : Binding σ} {held : Holdings}
    {server : Server} {replies more : List BackendMessage} {c : Connection} {rest : Bytes}
    (concerns : ∀ m ∈ messages, Concerns (Descriptor.name b.statement).text
      (String.ofList (Descriptor.sql b.statement)) m)
    (obeyed : Obeyed held (messages.map (Request.mk sql oids)))
    (count : oids.length = (Descriptor.fragments b.statement).placeholderCount)
    (agrees : Tracked.Agrees held b.statement) (runs : Server.Runs ⟨held, false⟩ messages replies server)
    (delivered : Delivers (replies ++ more) c.incoming rest) :
    ∃ outcome b' d, b.await awaited c = (outcome, b', d) ∧ Ends server outcome ∧ c.Quiet d ∧
      Delivers more d.incoming rest ∧ Tracked.bare b'.statement = Tracked.bare b.statement ∧
      Tracked.Agrees server.held b'.statement := by
  induction stages generalizing b held replies c with
  | nil =>
    cases runs
    exact ⟨.ok (), b, c, rfl, .inl ⟨rfl, (), rfl⟩, .refl c, delivered, rfl, agrees⟩
  | @cons message messages awaited later stage stages ih =>
    have first := concerns message (by simp)
    cases runs with
    | cons step remaining =>
      rw [List.append_assoc] at delivered
      cases step with
      | accept accepts =>
        obtain ⟨b', d, records, quiet, delivered', continues⟩ :=
          await_acknowledged stage accepts.acknowledges b delivered
        obtain ⟨bare, agrees'⟩ :=
          records.agrees (r := ⟨sql, oids, message⟩) accepts first obeyed.1 count agrees
        obtain ⟨name, text, fragments⟩ := Tracked.eq_of_bare bare
        have concerns' := fun m member => concerns m (List.mem_cons_of_mem _ member)
        rw [← name, ← text] at concerns'
        obtain ⟨outcome, b'', e, result, ends, quiet', delivered'', bare', agrees''⟩ :=
          ih concerns' (obeyed.2 _ _ accepts) (count.trans (by rw [fragments])) agrees' remaining delivered'
        exact ⟨outcome, b'', e, (continues later).trans result, ends, quiet.trans quiet', delivered'',
          bare'.trans bare, agrees''⟩
      | refuse _ begins =>
        -- No later message of this statement has an effect, and the reading stops here too.
        obtain ⟨rfl, rfl⟩ := remaining.skipping stages.sync_not_mem
        rw [List.append_assoc] at delivered
        obtain ⟨b', d, records, quiet, delivered', stops⟩ := await_refused stage begins b delivered
        obtain ⟨bare, agrees'⟩ :=
          records.agrees (r := ⟨sql, oids, message⟩) first obeyed.1 count agrees
        exact ⟨_, b', d, stops later, .inr ⟨rfl, _, rfl⟩, quiet, delivered', bare, agrees'⟩
      | ready => cases stage
      | unready => cases stage

theorem awaitCompletion_runs {held : Holdings} {server : Server} {replies more : List BackendMessage}
    (runs : Server.Runs ⟨held, false⟩ [.execute "" 0] replies server) {c : Connection} {rest : Bytes}
    (delivered : Delivers (replies ++ more) c.incoming rest) :
    ∃ outcome d, c.awaitCompletion 0 = (outcome, d) ∧ Ends server outcome ∧ c.Quiet d ∧
      Delivers more d.incoming rest ∧ server.held = held := by
  cases runs with
  | cons step remaining =>
    cases remaining
    rw [List.append_nil] at delivered
    cases step with
    | accept accepts =>
      cases accepts with
      | @execute _ _ rows ending affected each completes =>
        rw [List.append_assoc] at delivered
        rw [← Nat.zero_add rows.length] at completes
        obtain ⟨d, completed, quiet, delivered'⟩ := awaitCompletion_completes each completes delivered
        exact ⟨.ok affected, d, completed, .inl ⟨rfl, affected, rfl⟩, quiet, delivered', rfl⟩
    | @refuse _ _ begun report _ begins =>
      have each : ∀ row ∈ begun, IsRow row := by
        cases begins with
        | nothing => simp
        | execute each => exact each
      rw [List.append_assoc] at delivered
      obtain ⟨d, refused, quiet, delivered'⟩ := awaitCompletion_refused each 0 delivered
      exact ⟨.error (.server report), d, refused, .inr ⟨rfl, report, rfl⟩, quiet, delivered', rfl⟩

theorem awaitUnit_runs {p : Binding σ × Plan} {messages : List FrontendMessage}
    (planned : IsPlanOf p.1 p.2) (unit : IsUnitOf p.1 p.2 messages) {held : Holdings} {server : Server}
    {replies more : List BackendMessage} {c : Connection} {rest : Bytes}
    (agrees : Tracked.Agrees held p.1.statement) (runs : Server.Runs ⟨held, false⟩ messages replies server)
    (delivered : Delivers (replies ++ more) c.incoming rest) :
    ∃ outcome b d, awaitUnit p c = (outcome, b, d) ∧ Ends server outcome ∧ c.Quiet d ∧
      Delivers more d.incoming rest ∧ Tracked.bare b.statement = Tracked.bare p.1.statement ∧
      Tracked.Agrees server.held b.statement := by
  have obeyed := obeyed_unit agrees planned unit
  have concerns := unit.concerns
  obtain ⟨front, rfl, stages⟩ := unit.stages
  have count : p.1.parameters.oids.length = (Descriptor.fragments p.1.statement).placeholderCount :=
    (length_oids agrees planned).trans (Tracked.agrees_length agrees)
  obtain ⟨middle, first, second, before, last, rfl⟩ := runs.of_append
  rw [List.append_assoc] at delivered
  rw [Binding.requests, List.map_append] at obeyed
  obtain ⟨outcome, b, d, result, ends, quiet, delivered', bare, agrees'⟩ :=
    await_stages stages (fun m member => concerns m (List.mem_append_left _ member))
      obeyed.of_append count agrees before delivered
  obtain ⟨held', skipping⟩ := middle
  rcases ends with ⟨rfl, ⟨⟩, rfl⟩ | ⟨rfl, report, rfl⟩
  · obtain ⟨outcome, e, completed, ends, quiet', delivered'', same⟩ := awaitCompletion_runs last delivered'
    refine ⟨outcome, b, e, ?_, ends, quiet.trans quiet', delivered'', bare, same ▸ agrees'⟩
    rw [awaitUnit, result]
    dsimp only
    rw [completed]
  · obtain ⟨rfl, rfl⟩ := last.skipping (by simp)
    refine ⟨.error (.server report), b, d, ?_, .inr ⟨rfl, report, rfl⟩, quiet, delivered', bare, agrees'⟩
    rw [awaitUnit, result]

/-! ## The replies to a pipeline -/

/-- All replies up to `rest` were read, or an error has left the message that the server is ready. -/
def Leaves {α : Type} (outcome : Except Error α) (c : Connection) (rest : Bytes) : Prop :=
  (∃ a, outcome = .ok a) ∧ c.incoming = rest ∨
    ∃ report, outcome = .error (.server report) ∧ Delivers [.readyForQuery] c.incoming rest

theorem Leaves.map {α β : Type} {outcome : Except Error α} {c : Connection} {rest : Bytes}
    (leaves : Leaves outcome c rest) (f : α → β) : Leaves (outcome.map f) c rest := by
  rcases leaves with ⟨⟨a, rfl⟩, read⟩ | ⟨report, rfl, delivered⟩
  · exact .inl ⟨⟨f a, rfl⟩, read⟩
  · exact .inr ⟨report, rfl, delivered⟩

theorem drain_of_receive {c d : Connection} {received : Except Error BackendMessage}
    (read : c.receive = (received, d)) :
    c.drain =
      match received with
      | .error e => (.error e, d)
      | .ok .readyForQuery => (.ok (), d)
      | .ok _ => d.drain := by
  rw [drain]
  split <;> rename_i read' <;> rw [read] at read' <;> cases read'
  · rfl
  · rfl
  · rename_i message notReady
    cases message with
    | readyForQuery => exact absurd rfl notReady
    | _ => rfl

theorem drain_ready {c : Connection} {rest : Bytes} (delivered : Delivers [.readyForQuery] c.incoming rest) :
    ∃ d, c.drain = (.ok (), d) ∧ c.Quiet d ∧ d.incoming = rest := by
  obtain ⟨d, received, quiet, delivered'⟩ := receive_delivered delivered
  exact ⟨d, drain_of_receive received, quiet, by cases delivered'; rfl⟩

theorem Leaves.resynchronise {α : Type} {outcome : Except Error α} {c : Connection} {rest : Bytes}
    (leaves : Leaves outcome c rest) :
    ∃ d, c.resynchronise outcome = (outcome, d) ∧ c.Quiet d ∧ d.incoming = rest := by
  rcases leaves with ⟨⟨a, rfl⟩, read⟩ | ⟨report, rfl, delivered⟩
  · exact ⟨c, rfl, .refl c, read⟩
  · obtain ⟨d, drained, quiet, read⟩ := drain_ready delivered
    exact ⟨d, by rw [Connection.resynchronise, drained], quiet, read⟩

theorem awaitReady_runs {held : Holdings} {server : Server} {replies : List BackendMessage}
    (runs : Server.Runs ⟨held, false⟩ [.sync] replies server) {c : Connection} {rest : Bytes}
    (delivered : Delivers replies c.incoming rest) :
    server = ⟨held, false⟩ ∧ ∃ outcome d, c.awaitReady = (outcome, d) ∧ c.Quiet d ∧ Leaves outcome d rest := by
  cases runs with
  | cons step remaining =>
    cases remaining
    rw [List.append_nil] at delivered
    cases step with
    | accept accepts => cases accepts
    | refuse other => exact absurd rfl other
    | ready =>
      obtain ⟨d, received, quiet, delivered'⟩ := receiveReply_delivered delivered (by simp)
      refine ⟨rfl, .ok (), d, by rw [awaitReady, received], quiet, .inl ⟨⟨(), rfl⟩, ?_⟩⟩
      cases delivered'
      rfl
    | @unready _ report =>
      obtain ⟨d, received, quiet, delivered'⟩ := receiveReply_error delivered
      exact ⟨rfl, _, d, by rw [awaitReady, received], quiet, .inr ⟨report, rfl, delivered'⟩⟩

theorem awaitAll_runs {planned : List (Binding σ × Plan)} {units : List (List Request)}
    (plans : ∀ p ∈ planned, p.1.plan = .ok p.2)
    (made : List.Forall₂ (fun p unit => unit? p = some unit) planned units) {held : Holdings}
    (agrees : ∀ p ∈ planned, Tracked.Agrees held p.1.statement)
    (apart : planned.Pairwise fun p q => Apart p.1.statement q.1.statement) {server : Server}
    {replies : List BackendMessage} {c : Connection} {rest : Bytes}
    (runs : Server.Runs ⟨held, false⟩ (pipelineOf units.flatten) replies server)
    (delivered : Delivers replies c.incoming rest) :
    ∃ outcome bindings d, awaitAll planned c = (outcome, bindings, d) ∧ c.Quiet d ∧
      server.skipping = false ∧
      List.Forall₂ (fun p b => Tracked.bare b.statement = Tracked.bare p.1.statement ∧
        Tracked.Agrees server.held b.statement) planned bindings ∧
      (∀ name, (∀ p ∈ planned, name ≠ (Descriptor.name p.1.statement).text) →
        server.held name = held name) ∧
      Leaves outcome d rest := by
  induction made generalizing held replies c with
  | nil =>
    obtain ⟨rfl, outcome, d, result, quiet, leaves⟩ := awaitReady_runs runs delivered
    exact ⟨outcome.map fun _ => [], [], d, by rw [awaitAll, result], quiet, rfl, .nil, fun _ _ => rfl,
      leaves.map _⟩
  | @cons p unit planned units first made ih =>
    obtain ⟨messages, isUnit, rfl⟩ := unit?_some first
    obtain ⟨others, apart⟩ := List.pairwise_cons.1 apart
    have split : pipelineOf (p.1.requests messages :: units).flatten =
        messages ++ pipelineOf units.flatten := by
      simp [pipelineOf, Binding.request, Function.comp_def]
    rw [split] at runs
    obtain ⟨⟨held', skipping⟩, one, two, before, after, rfl⟩ := runs.of_append
    obtain ⟨outcome, b, d, result, ends, quiet, delivered', bare, agrees'⟩ :=
      awaitUnit_runs (plan_ok (plans p (by simp))) isUnit (agrees p (by simp)) before delivered
    have same : ∀ name, name ≠ (Descriptor.name p.1.statement).text → held' name = held name :=
      fun name different => before.frame isUnit.concerns different
    have later : ∀ q ∈ planned, Tracked.Agrees held' q.1.statement := by
      intro q member
      refine Tracked.agrees_frame (agrees q (by simp [member])) fun name owns => ?_
      exact same name ((others q member).ne_name owns)
    -- Either the other statements follow, or the server skips their messages and nothing is recorded of them.
    rcases ends with ⟨rfl, affected, rfl⟩ | ⟨rfl, report, rfl⟩
    · obtain ⟨outcome, bindings, e, result', quiet', ready, settled, frame, leaves⟩ :=
        ih (fun q member => plans q (by simp [member])) later apart after delivered'
      refine ⟨outcome.map (affected :: ·), b :: bindings, e, ?_, quiet.trans quiet', ready,
        .cons ⟨bare, ?_⟩ settled, ?_, leaves.map _⟩
      · rw [awaitAll_cons, result]
        dsimp only
        rw [result']
      · refine Tracked.agrees_frame agrees' fun name owns => frame name fun q member => ?_
        rw [← Tracked.owns_bare, bare, Tracked.owns_bare] at owns
        exact (others q member).symm.ne_name owns
      · intro name different
        rw [frame name fun q member => different q (by simp [member]), same name (different p (by simp))]
    · obtain ⟨rfl, rfl⟩ := after.skipping_sync (sync_not_mem_units made)
      refine ⟨.error (.server report), b :: planned.map (·.1), d, ?_, quiet, rfl, .cons ⟨bare, agrees'⟩ ?_,
        ?_, .inr ⟨report, rfl, delivered'⟩⟩
      · rw [awaitAll_cons, result]
      · rw [List.forall₂_map_right_iff, List.forall₂_same]
        exact fun q member => ⟨rfl, later q member⟩
      · exact fun name different => same name (different p (by simp))

theorem exchange_runs {bindings : List (Binding σ)} {requests : List Request}
    (sent : requests? bindings = some requests) {held : Holdings}
    (agrees : ∀ b ∈ bindings, Tracked.Agrees held b.statement)
    (apart : bindings.Pairwise fun a b => Apart a.statement b.statement) {server : Server}
    {replies : List BackendMessage} {c : Connection} {rest : Bytes} (writable : c.writable = true)
    (runs : Server.Runs ⟨held, false⟩ (pipelineOf requests) replies server)
    (delivered : Delivers replies c.incoming rest) :
    ∃ outcome bindings' d bytes, exchange bindings c = (outcome, bindings', d) ∧
      FrontendMessage.writeAll? (pipelineOf requests) [] = some bytes ∧ d.sent = c.sent ++ [bytes] ∧
      d.writable = true ∧ d.incoming = rest ∧ server.skipping = false ∧
      List.Forall₂ (fun a b => Tracked.bare b.statement = Tracked.bare a.statement ∧
        Tracked.Agrees server.held b.statement) bindings bindings' ∧
      ∀ name, (∀ b ∈ bindings, name ≠ (Descriptor.name b.statement).text) →
        server.held name = held name := by
  obtain ⟨planned, units, bytes, rfl, plans, made, rfl, written, exchanged⟩ := exchange_of_requests sent
  rw [List.pairwise_map] at apart
  obtain ⟨outcome, bindings', d, result, quiet, ready, settled, frame, leaves⟩ :=
    awaitAll_runs plans made (fun p member => agrees p.1 (List.mem_map_of_mem member)) apart
      (c := { c with sent := c.sent ++ [bytes] }) runs delivered
  obtain ⟨e, resynchronised, quiet', read⟩ := leaves.resynchronise
  have both := quiet.trans quiet'
  refine ⟨outcome, bindings', e, bytes, ?_, written, both.sent, both.writable.trans writable, read, ready, ?_,
    fun name different => frame name fun p member => different p.1 (List.mem_map_of_mem member)⟩
  · rw [exchanged c writable, result]
    dsimp only
    rw [resynchronised]
  · rw [List.forall₂_map_left_iff]
    exact settled

end

end ExtendedQuery
