import ExtendedQuery.Proofs.Session.Synchronised
import ExtendedQuery.Proofs.Wire.Asides

/-!
# Notices and reports change nothing

The server may send notices and reports of settings at any time. If more of them stand before the frames that a
call reads, also before those that it leaves out after an error, then the call returns the same, it leaves the
query and its parameters the same, and it leaves the same bytes; only what is known of the server follows the
settings that were reported (`asides_transparent`).
-/

namespace ExtendedQuery

open Wire

variable {k : Capabilities} {base spliced : List Frame} {tail : Bytes} {c d : Connection}

namespace Connection

theorem receiveReply_beside (beside : Beside k base spliced tail c d) :
    ∃ outcome c' d', c.receiveReply = (outcome, c') ∧ d.receiveReply = (outcome, d') ∧
      Beside k base spliced tail c' d' := by
  obtain ⟨outcome, c', d', first, second, beside'⟩ := receiveExpected_beside none beside
  unfold receiveReply receive
  rw [first, second]
  cases outcome with
  | error e => exact ⟨_, _, _, rfl, rfl, beside'⟩
  | ok message => cases message <;> exact ⟨_, _, _, rfl, rfl, beside'⟩

theorem awaitCompletion_beside (rows : Nat) (beside : Beside k base spliced tail c d) :
    ∃ outcome c' d', c.awaitCompletion rows = (outcome, c') ∧ d.awaitCompletion rows = (outcome, d') ∧
      Beside k base spliced tail c' d' := by
  induction length : c.incoming.length using Nat.strongRecOn generalizing rows c d with
  | ind n ih =>
    obtain ⟨outcome, c', d', first, second, beside'⟩ := receiveReply_beside beside
    rw [awaitCompletion_of_receiveReply first, awaitCompletion_of_receiveReply second]
    cases outcome with
    | error e => exact ⟨_, _, _, rfl, rfl, beside'⟩
    | ok reply =>
      cases reply with
      | dataRow columns body => exact ih _ (length ▸ receiveReply_length_lt first) (rows + 1) beside' rfl
      | _ => exact ⟨_, _, _, rfl, rfl, beside'⟩

theorem awaitReady_beside (beside : Beside k base spliced tail c d) :
    ∃ outcome c' d', c.awaitReady = (outcome, c') ∧ d.awaitReady = (outcome, d') ∧
      Beside k base spliced tail c' d' := by
  obtain ⟨outcome, c', d', first, second, beside'⟩ := receiveReply_beside beside
  unfold awaitReady
  rw [first, second]
  cases outcome with
  | error e => exact ⟨_, _, _, rfl, rfl, beside'⟩
  | ok reply => cases reply <;> exact ⟨_, _, _, rfl, rfl, beside'⟩

theorem drain_beside (beside : Beside k base spliced tail c d) :
    ∃ outcome c' d', c.drain = (outcome, c') ∧ d.drain = (outcome, d') ∧ Beside k base spliced tail c' d' := by
  induction length : c.incoming.length using Nat.strongRecOn generalizing c d with
  | ind n ih =>
    obtain ⟨outcome, c', d', first, second, beside'⟩ := receiveExpected_beside none beside
    rw [drain_of_receive first, drain_of_receive second]
    cases outcome with
    | error e => exact ⟨_, _, _, rfl, rfl, beside'⟩
    | ok message =>
      cases message with
      | readyForQuery => exact ⟨_, _, _, rfl, rfl, beside'⟩
      | _ => exact ih _ (length ▸ receive_length_lt first) beside' rfl

theorem resynchronise_beside {α : Type} (outcome : Except Error α) (beside : Beside k base spliced tail c d) :
    ∃ outcome' c' d', c.resynchronise outcome = (outcome', c') ∧ d.resynchronise outcome = (outcome', d') ∧
      Beside k base spliced tail c' d' := by
  obtain ⟨drained, c', d', first, second, beside'⟩ := drain_beside beside
  unfold resynchronise
  split
  · rw [first, second]
    cases drained <;> exact ⟨_, _, _, rfl, rfl, beside'⟩
  · exact ⟨_, _, _, rfl, rfl, beside⟩

theorem awaitClosed_beside (count : Nat) (beside : Beside k base spliced tail c d) :
    ∃ outcome c' d', c.awaitClosed count = (outcome, c') ∧ d.awaitClosed count = (outcome, d') ∧
      Beside k base spliced tail c' d' := by
  induction count generalizing c d with
  | zero => exact awaitReady_beside beside
  | succ count ih =>
    obtain ⟨outcome, c', d', first, second, beside'⟩ := receiveReply_beside beside
    unfold awaitClosed
    rw [first, second]
    cases outcome with
    | error e => exact ⟨_, _, _, rfl, rfl, beside'⟩
    | ok reply => cases reply <;> first | exact ih beside' | exact ⟨_, _, _, rfl, rfl, beside'⟩

end Connection

section

variable {σ : Type} [Descriptor σ]

theorem Binding.await_beside (b : Binding σ) (awaited : List Awaited) (beside : Beside k base spliced tail c d) :
    ∃ outcome b' c' d', b.await awaited c = (outcome, b', c') ∧ b.await awaited d = (outcome, b', d') ∧
      Beside k base spliced tail c' d' := by
  induction awaited generalizing b c d with
  | nil => exact ⟨_, _, _, _, rfl, rfl, beside⟩
  | cons first later ih =>
    obtain ⟨outcome, c', d', received, received', beside'⟩ := Connection.receiveReply_beside beside
    unfold await
    rw [received, received']
    cases outcome with
    | error e => exact ⟨_, _, _, _, rfl, rfl, beside'⟩
    | ok reply =>
      dsimp only
      cases b.record first reply with
      | error e => exact ⟨_, _, _, _, rfl, rfl, beside'⟩
      | ok b => exact ih b beside'

theorem awaitAll_beside (planned : List (Binding σ × Plan)) (beside : Beside k base spliced tail c d) :
    ∃ outcome bindings c' d', awaitAll planned c = (outcome, bindings, c') ∧
      awaitAll planned d = (outcome, bindings, d') ∧ Beside k base spliced tail c' d' := by
  induction planned generalizing c d with
  | nil =>
    obtain ⟨outcome, c', d', first, second, beside'⟩ := Connection.awaitReady_beside beside
    unfold awaitAll
    rw [first, second]
    exact ⟨_, _, _, _, rfl, rfl, beside'⟩
  | cons p later ih =>
    obtain ⟨b, plan⟩ := p
    obtain ⟨outcome, b', c₁, d₁, first, second, beside₁⟩ := b.await_beside plan.awaited beside
    unfold awaitAll
    rw [first, second]
    cases outcome with
    | error e => exact ⟨_, _, _, _, rfl, rfl, beside₁⟩
    | ok =>
      obtain ⟨completed, c₂, d₂, first, second, beside₂⟩ := Connection.awaitCompletion_beside 0 beside₁
      dsimp only
      rw [first, second]
      cases completed with
      | error e => exact ⟨_, _, _, _, rfl, rfl, beside₂⟩
      | ok affected =>
        obtain ⟨others, bindings, c₃, d₃, first, second, beside₃⟩ := ih beside₂
        dsimp only
        rw [first, second]
        exact ⟨_, _, _, _, rfl, rfl, beside₃⟩

theorem Beside.send (beside : Beside k base spliced tail c d) (bytes : Bytes) :
    (∃ e, c.send bytes = .error e ∧ d.send bytes = .error e) ∨
      ∃ c' d', c.send bytes = .ok c' ∧ d.send bytes = .ok d' ∧ Beside k base spliced tail c' d' := by
  have same : d.writable = c.writable := by cases beside <;> rfl
  unfold Connection.send
  rw [same]
  cases c.writable with
  | false => exact .inl ⟨_, rfl, rfl⟩
  | true =>
    refine .inr ⟨_, _, rfl, rfl, ?_⟩
    cases beside with
    | within interleaves before before' => exact .within interleaves before before'
    | beyond short silent => exact .beyond short silent

theorem exchange_beside (bindings : List (Binding σ)) (beside : Beside k base spliced tail c d) :
    ∃ outcome bindings' c' d', exchange bindings c = (outcome, bindings', c') ∧
      exchange bindings d = (outcome, bindings', d') ∧ Beside k base spliced tail c' d' := by
  unfold exchange
  cases bindings.mapM Binding.plan with
  | error e => exact ⟨_, _, _, _, rfl, rfl, beside⟩
  | ok plans =>
    dsimp only
    cases (pipelineMessages? (bindings.zip plans)).bind (FrontendMessage.writeAll? · []) with
    | none => exact ⟨_, _, _, _, rfl, rfl, beside⟩
    | some bytes =>
      dsimp only
      rcases beside.send bytes with ⟨e, first, second⟩ | ⟨c', d', first, second, beside'⟩
      · rw [first, second]
        exact ⟨_, _, _, _, rfl, rfl, beside⟩
      · obtain ⟨outcome, bindings', c₁, d₁, read, read', beside₁⟩ :=
          awaitAll_beside (bindings.zip plans) beside'
        obtain ⟨outcome', c₂, d₂, drained, drained', beside₂⟩ :=
          Connection.resynchronise_beside outcome beside₁
        rw [first, second]
        dsimp only
        rw [read, read']
        dsimp only
        rw [drained, drained']
        exact ⟨_, _, _, _, rfl, rfl, beside₂⟩

theorem exchangeOne_beside (statement : σ) (parameters : ParameterList) (beside : Beside k base spliced tail c d) :
    ∃ outcome b c' d', exchangeOne statement parameters c = (outcome, b, c') ∧
      exchangeOne statement parameters d = (outcome, b, d') ∧ Beside k base spliced tail c' d' := by
  obtain ⟨outcome, bindings, c', d', first, second, beside'⟩ := exchange_beside [⟨statement, parameters⟩] beside
  unfold exchangeOne
  rw [first, second]
  exact ⟨_, _, _, _, rfl, rfl, beside'⟩

end

theorem Query.execute_beside (query : Query) (parameters : Parameters) (beside : Beside k base spliced tail c d) :
    ∃ outcome query' parameters' c' d', query.execute parameters c = ⟨outcome, query', parameters', c'⟩ ∧
      query.execute parameters d = ⟨outcome, query', parameters', d'⟩ ∧ Beside k base spliced tail c' d' := by
  unfold execute
  split
  · rename_i s list
    obtain ⟨outcome, b, c', d', first, second, beside'⟩ := exchangeOne_beside s list beside
    rw [first, second]
    exact ⟨_, _, _, _, _, rfl, rfl, beside'⟩
  · rename_i s list
    split
    · exact ⟨_, _, _, _, _, rfl, rfl, beside⟩
    · obtain ⟨outcome, b, c', d', first, second, beside'⟩ := exchangeOne_beside s.reset list beside
      rw [first, second]
      exact ⟨_, _, _, _, _, rfl, rfl, beside'⟩
  · rename_i statements lists
    split
    · exact ⟨_, _, _, _, _, rfl, rfl, beside⟩
    · obtain ⟨outcome, bindings, c', d', first, second, beside'⟩ :=
        exchange_beside (List.zipWith Binding.mk statements lists) beside
      rw [first, second]
      exact ⟨_, _, _, _, _, rfl, rfl, beside'⟩
  · exact ⟨_, _, _, _, _, rfl, rfl, beside⟩

theorem Connection.closeStatements_beside (names : List StatementName)
    (beside : Beside k base spliced tail c d) :
    ∃ outcome c' d', c.closeStatements names = (outcome, c') ∧ d.closeStatements names = (outcome, d') ∧
      Beside k base spliced tail c' d' := by
  unfold closeStatements
  cases names.filter (!·.isUnnamed) with
  | nil => exact ⟨_, _, _, rfl, rfl, beside⟩
  | cons name others =>
    dsimp only
    generalize FrontendMessage.writeAll? _ [] = written
    cases written with
    | none => exact ⟨_, _, _, rfl, rfl, beside⟩
    | some bytes =>
      dsimp only
      rcases beside.send bytes with ⟨e, first, second⟩ | ⟨c', d', first, second, beside'⟩
      · rw [first, second]
        exact ⟨_, _, _, rfl, rfl, beside⟩
      · obtain ⟨outcome, c₁, d₁, read, read', beside₁⟩ :=
          awaitClosed_beside (name :: others).length beside'
        rw [first, second]
        dsimp only
        rw [read, read']
        exact resynchronise_beside outcome beside₁

/-- A call has left `c`, and left `d` where the frames `gs` stood for the frames `fs` before the `tail`. The
settings of the frames were reported, and then the ones that the call has read in the tail. -/
structure LeftAlike (k : Capabilities) (fs gs : List Frame) (tail : Bytes) (c d : Connection) : Prop where
  incoming : d.incoming = c.incoming
  sent : d.sent = c.sent
  writable : d.writable = c.writable
  capabilities : ∃ more, (c.incoming = tail → more = []) ∧
    c.capabilities = k.reportAll (reports fs ++ more) ∧ d.capabilities = k.reportAll (reports gs ++ more)

theorem Beside.leftAlike (beside : Beside k base spliced tail c d) (read : c.incoming.length ≤ tail.length) :
    LeftAlike k base spliced tail c d := by
  cases beside with
  | beyond short silent => exact ⟨rfl, rfl, rfl, _, silent, rfl, rfl⟩
  | @within fs gs told told' sent writable interleaves before before' =>
    cases interleaves with
    | nil =>
      have all : told = reports base ++ [] := by simpa [reports] using before
      have all' : told' = reports spliced ++ [] := by simpa [reports] using before'
      exact ⟨rfl, rfl, rfl, [], fun _ => rfl, by rw [← all], by rw [← all']⟩
    | @keep f fs gs fits interleaves =>
      have unread := frames_ne_nil f fs
      rw [List.length_append] at read
      omega
    | @insert f g fs gs fits aside interleaves =>
      have unread := frames_ne_nil f fs
      rw [List.length_append] at read
      omega

theorem Interleaves.beside {fs gs : List Frame} (interleaves : Interleaves fs gs) (c : Connection) {tail : Bytes}
    (incoming : c.incoming = frames fs ++ tail) :
    Beside c.capabilities fs gs tail c { c with incoming := frames gs ++ tail } := by
  obtain ⟨_, sent, writable, k⟩ := c
  dsimp only at incoming
  rw [incoming]
  have first : [] ++ reports fs = reports fs := rfl
  have second : [] ++ reports gs = reports gs := rfl
  exact .within interleaves first second

/-- Notices and reports of settings may stand before any frames that executing a query or closing statements
reads. Receiving takes them up to the next other frame, and that frame. -/
theorem asides_transparent :
    (∀ (query : Query) (parameters : Parameters) (c : Connection) (fs gs : List Frame) (tail : Bytes),
      Interleaves fs gs → c.incoming = frames fs ++ tail →
      (query.execute parameters c).connection.incoming.length ≤ tail.length →
      let e := query.execute parameters c
      let e' := query.execute parameters { c with incoming := frames gs ++ tail }
      e'.outcome = e.outcome ∧ e'.query = e.query ∧ e'.parameters = e.parameters ∧
        LeftAlike c.capabilities fs gs tail e.connection e'.connection) ∧
    (∀ (names : List StatementName) (c : Connection) (fs gs : List Frame) (tail : Bytes),
      Interleaves fs gs → c.incoming = frames fs ++ tail →
      (c.closeStatements names).2.incoming.length ≤ tail.length →
      let closed := c.closeStatements names
      let closed' := { c with incoming := frames gs ++ tail }.closeStatements names
      closed'.1 = closed.1 ∧ LeftAlike c.capabilities fs gs tail closed.2 closed'.2) ∧
    ∀ (expected : Option BackendKind) (c : Connection) (fs : List Frame), c.incoming = frames fs →
      (∀ f ∈ fs, Fits f) →
      (∀ f ∈ fs, f.1 = BackendKind.parameterStatus.typeByte →
        ∃ message, BackendMessage.ofBody .parameterStatus f.2 = .ok message) →
      c.receiveExpected expected =
        match fs.dropWhile isAsynchronous with
        | [] => (.error (.transport .endOfInput), { c with
            incoming := []
            capabilities := c.capabilities.reportAll (reports (fs.takeWhile isAsynchronous)) })
        | f :: later => ((Connection.decodeExpected expected f.1 f.2).mapError .protocol, { c with
            incoming := frames later
            capabilities := c.capabilities.reportAll (reports (fs.takeWhile isAsynchronous)) }) := by
  refine ⟨?_, ?_, ?_⟩
  · intro query parameters c fs gs tail interleaves incoming read
    obtain ⟨outcome, query', parameters', c', d', first, second, beside⟩ :=
      query.execute_beside parameters (interleaves.beside c incoming)
    rw [first] at read ⊢
    rw [second]
    exact ⟨rfl, rfl, rfl, beside.leftAlike read⟩
  · intro names c fs gs tail interleaves incoming read
    obtain ⟨outcome, c', d', first, second, beside⟩ :=
      Connection.closeStatements_beside names (interleaves.beside c incoming)
    rw [first] at read ⊢
    rw [second]
    exact ⟨rfl, beside.leftAlike read⟩
  · intro expected c fs incoming fits wellFormed
    obtain ⟨_, sent, writable, k⟩ := c
    dsimp only at incoming
    rw [incoming]
    exact Connection.receiveExpected_frames expected fits wellFormed

def refusedFrames : List Frame := [(0x31, []), (0x45, [0x43, 0x34, 0x32, 0, 0]), (0x32, []), (0x5A, [0x49])]

def refusedAmong : List Frame :=
  [(0x4E, [0]), (0x31, []), (0x45, [0x43, 0x34, 0x32, 0, 0]),
    (0x53, Bytes.ofStringZero "server_version" ++ Bytes.ofStringZero "8.0"), (0x32, []), (0x5A, [0x49])]

theorem refused_interleaves : Interleaves refusedFrames refusedAmong := by
  have status : ∃ message, BackendMessage.ofBody .parameterStatus
      (Bytes.ofStringZero "server_version" ++ Bytes.ofStringZero "8.0") = .ok message := ⟨_, by rfl⟩
  unfold refusedFrames refusedAmong
  apply Interleaves.insert (by decide) (.inl rfl)
  apply Interleaves.keep (by decide)
  apply Interleaves.keep (by decide)
  apply Interleaves.insert (by decide) (.inr ⟨rfl, status⟩)
  apply Interleaves.keep (by decide)
  exact .keep (by decide) .nil

def refusedExecution : Execution :=
  selectQuery.execute (.single []) ⟨frames refusedAmong ++ [0x5A], [], true, .default⟩

theorem asides_transparent_refused :
    refusedExecution.outcome = .error (.server ⟨[0x43, 0x34, 0x32, 0, 0]⟩) ∧
      refusedExecution.connection.incoming = [0x5A] ∧
      refusedExecution.connection.capabilities.extendedEscapes = false := by
  have sent : selectQuery.pipelines (.single []) = [selectRequests] := by rfl
  have unready : .readyForQuery ∉ [BackendMessage.bindComplete] := by simp
  have step : InStep ⟨selectRefused, [], true, .default⟩ selectRequests _ id _ _ := Query.execute_inStep sent rfl
  obtain ⟨outcome, -, read, -⟩ := step.refused selectRequests_answered unready selectRefused_delivers
  have length : (selectQuery.execute (.single []) ⟨selectRefused, [], true, .default⟩).connection.incoming.length ≤
      [(0x5A : UInt8)].length := by rw [read]
  obtain ⟨same, -, -, alike⟩ :=
    asides_transparent.1 selectQuery (.single []) _ _ _ _ refused_interleaves rfl length
  obtain ⟨more, silent, -, reported⟩ := alike.capabilities
  have version : reports refusedAmong = [("server_version", "8.0")] := by cbv
  rw [silent read, version] at reported
  have known : refusedExecution.connection.capabilities =
      Capabilities.default.reportAll ([("server_version", "8.0")] ++ []) := reported
  refine ⟨same.trans outcome, alike.incoming.trans read, ?_⟩
  rw [known]
  cbv

end ExtendedQuery
