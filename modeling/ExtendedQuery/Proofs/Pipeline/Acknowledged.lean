import ExtendedQuery.Proofs.Batch.Answers

/-!
# Replies before an error

A reply says by itself what it changes in the record of a statement (`Binding.noted`), and a completion hands
over to the next statement (`sharedOut`). If the server acknowledges a whole pipeline, its replies are
recorded so and read to the last byte; if it refuses a message, the replies before the error are recorded so,
and everything up to the message that the server is ready is read (`exchange_inStep`).
-/

namespace ExtendedQuery

open Wire Connection

/-! ## What a reply changes -/

namespace Wire.BackendMessage

def completes : BackendMessage → Bool
  | .commandComplete _ | .emptyQueryResponse | .portalSuspended => true
  | _ => false

end Wire.BackendMessage

/-- The replies are for the statements one after the other, each up to the completion of its execution. -/
def sharedOut {β : Type} (note : Plan → β → BackendMessage → β) :
    List (β × Plan) → List BackendMessage → List β
  | [], _ => []
  | (b, _) :: later, [] => b :: later.map (·.1)
  | (b, plan) :: later, reply :: replies =>
    if reply.completes then b :: sharedOut note later replies
    else sharedOut note ((note plan b reply, plan) :: later) replies
termination_by structural _ replies => replies

section

variable {σ : Type} [Descriptor σ]

def Binding.noted (plan : Plan) (b : Binding σ) : BackendMessage → Binding σ
  | .closeComplete => { b with statement := Descriptor.setPrepared none b.statement }
  | .parseComplete => { b with statement := Descriptor.setPrepared (some plan.types) b.statement }
  | .parameterDescription count body =>
    match decodeOids count body with
    | .ok types => ⟨Descriptor.setTypes types b.statement, b.parameters.resolve types⟩
    | .error _ => b
  | .rowDescription count body =>
    match decodeFields count body with
    | .ok fields => { b with statement := Descriptor.setFields fields b.statement }
    | .error _ => b
  | .noData => { b with statement := Descriptor.setFields [] b.statement }
  | _ => b

theorem bare_noted [Tracked σ] (plan : Plan) (b : Binding σ) (reply : BackendMessage) :
    Tracked.bare (b.noted plan reply).statement = Tracked.bare b.statement := by
  unfold Binding.noted
  split
  · exact Tracked.bare_setPrepared _ _
  · exact Tracked.bare_setPrepared _ _
  · split
    · exact Tracked.bare_setTypes _ _
    · rfl
  · split
    · exact Tracked.bare_setFields _ _
    · rfl
  · exact Tracked.bare_setFields _ _
  · rfl

theorem bare_foldl_noted [Tracked σ] (plan : Plan) (b : Binding σ) (replies : List BackendMessage) :
    Tracked.bare (replies.foldl (Binding.noted plan) b).statement = Tracked.bare b.statement := by
  induction replies generalizing b with
  | nil => rfl
  | cons reply replies ih =>
    rw [List.foldl_cons, ih]
    exact bare_noted plan b reply

def acknowledged (bindings : List (Binding σ)) (replies : List BackendMessage) : List (Binding σ) :=
  match bindings.mapM Binding.plan with
  | .ok plans => sharedOut Binding.noted (bindings.zip plans) replies
  | .error _ => bindings

end

section

variable {β : Type} {note : Plan → β → BackendMessage → β} {b : β} {plan : Plan} {later : List (β × Plan)}

theorem sharedOut_cons_nil : sharedOut note ((b, plan) :: later) [] = b :: later.map (·.1) := by
  rw [sharedOut]

theorem sharedOut_nil (planned : List (β × Plan)) : sharedOut note planned [] = planned.map (·.1) := by
  cases planned with
  | nil => rw [sharedOut, List.map_nil]
  | cons => rw [sharedOut, List.map_cons]

theorem sharedOut_before {replies : List BackendMessage} (open' : ∀ reply ∈ replies, reply.completes = false)
    (more : List BackendMessage) :
    sharedOut note ((b, plan) :: later) (replies ++ more) =
      sharedOut note ((replies.foldl (note plan) b, plan) :: later) more := by
  induction replies generalizing b with
  | nil => rfl
  | cons reply replies ih =>
    rw [List.cons_append, sharedOut, open' reply (by simp), if_neg Bool.false_ne_true, List.foldl_cons]
    exact ih fun other member => open' other (by simp [member])

theorem sharedOut_completed {ending : BackendMessage} (completes : ending.completes = true)
    (replies : List BackendMessage) :
    sharedOut note ((b, plan) :: later) (ending :: replies) = b :: sharedOut note later replies := by
  rw [sharedOut, if_pos completes]

end

section

variable {β γ : Type} {note : Plan → β → BackendMessage → β}

theorem sharedOut_map {note' : Plan → γ → BackendMessage → γ} (f : β → γ)
    (commutes : ∀ plan b reply, f (note plan b reply) = note' plan (f b) reply) (planned : List (β × Plan))
    (replies : List BackendMessage) :
    (sharedOut note planned replies).map f = sharedOut note' (planned.map (Prod.map f id)) replies := by
  induction replies generalizing planned with
  | nil =>
    rw [sharedOut_nil, sharedOut_nil, List.map_map, List.map_map]
    rfl
  | cons reply replies ih =>
    cases planned with
    | nil => rfl
    | cons p later =>
      obtain ⟨b, plan⟩ := p
      rw [List.map_cons, Prod.map_apply, sharedOut, sharedOut]
      split
      · rw [List.map_cons, ih]
      · rw [ih, List.map_cons, Prod.map_apply, commutes]
        rfl

theorem sharedOut_same (planned : List (β × Plan)) (replies : List BackendMessage) :
    sharedOut (fun _ b _ => b) planned replies = planned.map (·.1) := by
  induction replies generalizing planned with
  | nil => exact sharedOut_nil planned
  | cons reply replies ih =>
    cases planned with
    | nil => rfl
    | cons p later =>
      obtain ⟨b, plan⟩ := p
      rw [sharedOut, ih, ih]
      split <;> rfl

theorem map_sharedOut (f : β → γ) (same : ∀ plan b reply, f (note plan b reply) = f b)
    (planned : List (β × Plan)) (replies : List BackendMessage) :
    (sharedOut note planned replies).map f = planned.map fun p => f p.1 := by
  have all := @sharedOut_map _ _ note (fun _ c _ => c) f same planned replies
  rw [all, sharedOut_same, List.map_map]
  rfl

end

/-! ## Replies that suit -/

section

variable {σ : Type} [Descriptor σ]

inductive Suits (plan : Plan) : Awaited → BackendMessage → Prop
  | closed : Suits plan .closed .closeComplete
  | parsed : Suits plan (.parsed plan.types) .parseComplete
  | parameterTypes {count : UInt16} {body : Bytes} {types : List Oid} : decodeOids count body = .ok types →
      Suits plan .parameterTypes (.parameterDescription count body)
  | resultFields {reply : BackendMessage} : IsResult reply → Suits plan .resultFields reply
  | bound : Suits plan .bound .bindComplete

variable {plan : Plan} {awaited : Awaited} {reply : BackendMessage}

theorem Suits.record (suits : Suits plan awaited reply) (b : Binding σ) :
    b.record awaited reply = .ok (b.noted plan reply) := by
  cases suits with
  | closed => rfl
  | parsed => rfl
  | parameterTypes decoded => simp only [Binding.record, Binding.noted, decoded, Except.map]
  | resultFields result =>
    cases result with
    | noData => rfl
    | fields decoded => simp only [Binding.record, Binding.noted, decoded, Except.map]
  | bound => rfl

theorem Suits.completes (suits : Suits plan awaited reply) : reply.completes = false := by
  cases suits with
  | resultFields result => cases result <;> rfl
  | _ => rfl

theorem Suits.noError (suits : Suits plan awaited reply) (report : Report) : reply ≠ .errorResponse report := by
  rintro rfl
  cases suits with
  | resultFields result => cases result

theorem suits_of_acknowledges {message : FrontendMessage} {awaited : List Awaited} (stage : Stage message awaited)
    (parsed : ∀ types, .parsed types ∈ awaited → types = plan.types) {replies : List BackendMessage}
    (acknowledges : Acknowledges message replies) : List.Forall₂ (Suits plan) awaited replies := by
  cases stage with
  | close =>
    cases acknowledges
    exact .cons .closed .nil
  | @parse m =>
    cases acknowledges
    rw [parsed m.types (by simp)]
    exact .cons .parsed .nil
  | describe =>
    cases acknowledges with
    | describe decoded result => exact .cons (.parameterTypes decoded) (.cons (.resultFields result) .nil)
  | bind =>
    cases acknowledges
    exact .cons .bound .nil

theorem suits_of_answered {messages : List FrontendMessage} {awaited : List Awaited}
    (stages : Stages messages awaited) (parsed : ∀ types, .parsed types ∈ awaited → types = plan.types)
    {replies : List BackendMessage} {counts : List Nat} (answered : Answered messages replies counts) :
    List.Forall₂ (Suits plan) awaited replies ∧ counts = [] := by
  induction stages generalizing replies with
  | nil =>
    cases answered
    exact ⟨.nil, rfl⟩
  | cons stage _ ih =>
    cases answered with
    | execute => cases stage
    | other _ acknowledges answered =>
      have first := suits_of_acknowledges stage (fun types member => parsed types (by simp [member])) acknowledges
      obtain ⟨others, none⟩ := ih (fun types member => parsed types (by simp [member])) answered
      exact ⟨List.rel_append first others, none⟩

theorem parsed_mem_awaited {types : List Oid} (member : .parsed types ∈ plan.awaited) : types = plan.types := by
  simp only [Plan.awaited, List.mem_append, List.mem_ite_nil_right, List.mem_cons, List.not_mem_nil, or_false,
    reduceCtorEq, and_false, false_or, Awaited.parsed.injEq] at member
  exact member.2

/-! ## Reading the replies to one statement -/

theorem await_suits {awaited : List Awaited} {replies more : List BackendMessage}
    (suits : List.Forall₂ (Suits plan) awaited replies) (later : List Awaited) (b : Binding σ) {c : Connection}
    {rest : Bytes} (delivered : Delivers (replies ++ more) c.incoming rest) :
    ∃ d, b.await (awaited ++ later) c = (replies.foldl (Binding.noted plan) b).await later d ∧ c.Quiet d ∧
      Delivers more d.incoming rest := by
  induction suits generalizing b c with
  | nil => exact ⟨c, rfl, .refl c, delivered⟩
  | cons first _ ih =>
    obtain ⟨d, received, quiet, delivered'⟩ := receiveReply_delivered delivered first.noError
    obtain ⟨e, continues, quiet', delivered''⟩ := ih (b.noted plan _) delivered'
    refine ⟨e, ?_, quiet.trans quiet', delivered''⟩
    rw [List.cons_append, await_cons received (first.record b)]
    exact continues

theorem await_suits_error {awaited : List Awaited} {replies more : List BackendMessage}
    (suits : List.Forall₂ (Suits plan) awaited replies) (next : Awaited) (later : List Awaited) (b : Binding σ)
    {report : Report} {c : Connection} {rest : Bytes}
    (delivered : Delivers (replies ++ .errorResponse report :: more) c.incoming rest) :
    ∃ d, b.await (awaited ++ next :: later) c =
        (.error (.server report), replies.foldl (Binding.noted plan) b, d) ∧ c.Quiet d ∧
      Delivers more d.incoming rest := by
  obtain ⟨d, continues, quiet, delivered'⟩ := await_suits suits (next :: later) b delivered
  obtain ⟨e, received, quiet', delivered''⟩ := receiveReply_error delivered'
  exact ⟨e, continues.trans (await_error received later), quiet.trans quiet', delivered''⟩

variable {b : Binding σ} {messages : List FrontendMessage}

structure UnitReplies (plan : Plan) (replies : List BackendMessage) (counts : List Nat)
    (recorded rows : List BackendMessage) (ending : BackendMessage) (affected : Nat) : Prop where
  all : replies = recorded ++ (rows ++ [ending])
  counts : counts = [affected]
  suits : List.Forall₂ (Suits plan) plan.awaited recorded
  each : ∀ row ∈ rows, IsRow row
  completes : Completes rows.length ending affected

theorem IsUnitOf.replies (unit : IsUnitOf b plan messages) {replies : List BackendMessage} {counts : List Nat}
    (answered : Answered messages replies counts) :
    ∃ recorded rows ending affected, UnitReplies plan replies counts recorded rows ending affected := by
  obtain ⟨front, rfl, stages⟩ := unit.stages
  obtain ⟨first, second, some, others, before, last, rfl, rfl⟩ := answered.of_append
  obtain ⟨suits, rfl⟩ := suits_of_answered stages (fun types => parsed_mem_awaited) before
  cases last with
  | other different => exact absurd rfl (different "" 0)
  | @execute _ _ _ rows _ ending affected _ each completes none =>
    cases none
    exact ⟨first, rows, ending, affected, by simp, rfl, suits, each, completes⟩

theorem completes_of_suits {awaited : List Awaited} {replies : List BackendMessage}
    (suits : List.Forall₂ (Suits plan) awaited replies) : ∀ reply ∈ replies, reply.completes = false := by
  induction suits with
  | nil => simp
  | cons first _ ih => exact List.forall_mem_cons.2 ⟨first.completes, ih⟩

theorem foldl_noted_rows {rows : List BackendMessage} (each : ∀ row ∈ rows, IsRow row) (b : Binding σ) :
    rows.foldl (Binding.noted plan) b = b := by
  induction rows with
  | nil => rfl
  | cons row rows ih =>
    obtain ⟨columns, body, rfl⟩ := each row (by simp)
    exact ih fun other member => each other (by simp [member])

theorem IsRow.completes {row : BackendMessage} (isRow : IsRow row) : row.completes = false := by
  obtain ⟨columns, body, rfl⟩ := isRow
  rfl

theorem Completes.completes {rows affected : Nat} {ending : BackendMessage}
    (completes : Completes rows ending affected) : ending.completes = true := by
  cases completes <;> rfl

theorem UnitReplies.pending {replies recorded rows : List BackendMessage} {counts : List Nat}
    {ending : BackendMessage} {affected : Nat} (parts : UnitReplies plan replies counts recorded rows ending affected) :
    ∀ reply ∈ recorded ++ rows, reply.completes = false := by
  intro reply member
  rcases List.mem_append.1 member with inside | inside
  · exact completes_of_suits parts.suits reply inside
  · exact (parts.each reply inside).completes

section

variable {β : Type} {note : Plan → β → BackendMessage → β} {x : β} {later : List (β × Plan)}

theorem sharedOut_unit (still : ∀ {x ending}, ending.completes = true → note plan x ending = x)
    (unit : IsUnitOf b plan messages) {replies : List BackendMessage} {counts : List Nat}
    (answered : Answered messages replies counts) (others : List BackendMessage) :
    sharedOut note ((x, plan) :: later) (replies ++ others) =
      replies.foldl (note plan) x :: sharedOut note later others := by
  obtain ⟨recorded, rows, ending, affected, parts⟩ := unit.replies answered
  have all := parts.all
  have completes := parts.completes.completes
  rw [← List.append_assoc] at all
  subst all
  rw [List.append_assoc, sharedOut_before parts.pending, List.singleton_append, sharedOut_completed completes,
    List.foldl_concat, still completes]

theorem sharedOut_begun (unit : IsUnitOf b plan messages) {begun others : List BackendMessage}
    {next : BackendMessage} {counts : List Nat} (answered : Answered messages (begun ++ next :: others) counts) :
    sharedOut note ((x, plan) :: later) begun = begun.foldl (note plan) x :: later.map (·.1) := by
  obtain ⟨recorded, rows, ending, affected, parts⟩ := unit.replies answered
  have all := parts.all
  rw [← List.append_assoc] at all
  have inside := congrArg List.dropLast all
  rw [List.dropLast_concat, List.dropLast_append_of_ne_nil (by simp)] at inside
  have pending : ∀ reply ∈ begun, reply.completes = false := by
    intro reply member
    apply parts.pending
    rw [← inside]
    exact List.mem_append_left _ member
  rw [← List.append_nil begun, sharedOut_before pending, sharedOut_cons_nil, List.append_nil]

end

theorem sharedOut_rows {awaited : List Awaited} {recorded rows : List BackendMessage}
    (suits : List.Forall₂ (Suits plan) awaited recorded) (each : ∀ row ∈ rows, IsRow row)
    (later : List (Binding σ × Plan)) (more : List BackendMessage) :
    sharedOut Binding.noted ((b, plan) :: later) (recorded ++ (rows ++ more)) =
      sharedOut Binding.noted ((recorded.foldl (Binding.noted plan) b, plan) :: later) more := by
  rw [sharedOut_before (completes_of_suits suits), sharedOut_before fun row member => (each row member).completes,
    foldl_noted_rows each]

theorem awaitUnit_acknowledged (unit : IsUnitOf b plan messages) {replies more : List BackendMessage}
    {counts : List Nat} (answered : Answered messages replies counts) {c : Connection} {rest : Bytes}
    (delivered : Delivers (replies ++ more) c.incoming rest) :
    ∃ affected b' d, counts = [affected] ∧ awaitUnit (b, plan) c = (.ok affected, b', d) ∧ c.Quiet d ∧
      Delivers more d.incoming rest ∧ ∀ later others,
        sharedOut Binding.noted ((b, plan) :: later) (replies ++ others) =
          b' :: sharedOut Binding.noted later others := by
  obtain ⟨recorded, rows, ending, affected, parts⟩ := unit.replies answered
  have all := parts.all
  subst all
  rw [List.append_assoc, List.append_assoc] at delivered
  obtain ⟨d, awaited, quiet, delivered'⟩ := await_suits parts.suits [] b delivered
  have completes := parts.completes
  rw [← Nat.zero_add rows.length] at completes
  obtain ⟨e, completed, quiet', delivered''⟩ := awaitCompletion_completes parts.each completes delivered'
  refine ⟨affected, recorded.foldl (Binding.noted plan) b, e, parts.counts, ?_, quiet.trans quiet', delivered'', ?_⟩
  · rw [List.append_nil] at awaited
    rw [awaitUnit, awaited, Binding.await]
    dsimp only
    rw [completed]
  · intro later others
    rw [List.append_assoc, List.append_assoc, sharedOut_rows parts.suits parts.each, List.singleton_append,
      sharedOut_completed parts.completes.completes]

def StopsAt (b : Binding σ) (plan : Plan) (begun : List BackendMessage) : Prop :=
  ∀ {report : Report} {more : List BackendMessage} {c : Connection} {rest : Bytes},
    Delivers (begun ++ .errorResponse report :: more) c.incoming rest →
    ∃ b' d, awaitUnit (b, plan) c = (.error (.server report), b', d) ∧ c.Quiet d ∧
      Delivers more d.incoming rest ∧ ∀ later,
        sharedOut Binding.noted ((b, plan) :: later) begun = b' :: later.map (·.1)

theorem stopsAt_recorded {begun later : List BackendMessage} {next : BackendMessage}
    (suits : List.Forall₂ (Suits plan) plan.awaited (begun ++ next :: later)) : StopsAt b plan begun := by
  intro report more c rest delivered
  have before := List.forall₂_take_append _ begun _ suits
  have after := List.forall₂_drop_append _ begun _ suits
  have awaited := List.take_append_drop begun.length plan.awaited
  generalize plan.awaited.take begun.length = first at before awaited
  generalize plan.awaited.drop begun.length = remaining at after awaited
  cases after with
  | @cons missing _ others =>
    obtain ⟨d, refused, quiet, delivered'⟩ := await_suits_error before missing others b delivered
    refine ⟨begun.foldl (Binding.noted plan) b, d, ?_, quiet, delivered', ?_⟩
    · rw [awaitUnit, ← awaited, refused]
    · intro later
      rw [← List.append_nil begun, sharedOut_before (completes_of_suits before), sharedOut_cons_nil,
        List.append_nil]

theorem stopsAt_row {recorded rows : List BackendMessage} (suits : List.Forall₂ (Suits plan) plan.awaited recorded)
    (each : ∀ row ∈ rows, IsRow row) : StopsAt b plan (recorded ++ rows) := by
  intro report more c rest delivered
  rw [List.append_assoc] at delivered
  obtain ⟨d, awaited, quiet, delivered'⟩ := await_suits suits [] b delivered
  obtain ⟨e, refused, quiet', delivered''⟩ := awaitCompletion_refused each 0 delivered'
  refine ⟨recorded.foldl (Binding.noted plan) b, e, ?_, quiet.trans quiet', delivered'', ?_⟩
  · rw [List.append_nil] at awaited
    rw [awaitUnit, awaited, Binding.await]
    dsimp only
    rw [refused]
  · intro later
    rw [← List.append_nil rows, sharedOut_rows suits each, sharedOut_cons_nil]

theorem place_of_append {α : Type} {begun others first second : List α} {next : α}
    (split : begun ++ next :: others = first ++ second) :
    (∃ later, first = begun ++ next :: later) ∨
      ∃ begun', begun = first ++ begun' ∧ second = begun' ++ next :: others := by
  rcases List.append_eq_append_iff.1 split with ⟨missing, rfl, tail⟩ | ⟨begun', rfl, tail⟩
  · cases missing with
    | nil =>
      right
      exact ⟨[], by simp, tail.symm⟩
    | cons reply missing =>
      cases tail
      exact .inl ⟨missing, rfl⟩
  · exact .inr ⟨begun', rfl, tail⟩

theorem stopsAt_of_answered (unit : IsUnitOf b plan messages) {begun others : List BackendMessage}
    {next : BackendMessage} {counts : List Nat} (answered : Answered messages (begun ++ next :: others) counts) :
    StopsAt b plan begun := by
  obtain ⟨recorded, rows, ending, affected, parts⟩ := unit.replies answered
  have suits := parts.suits
  rcases place_of_append parts.all with ⟨later, rfl⟩ | ⟨read, rfl, tail⟩
  · apply stopsAt_recorded
    exact suits
  · have inside : rows = read ++ (next :: others).dropLast := by
      have same := congrArg List.dropLast tail
      rwa [List.dropLast_concat, List.dropLast_append_of_ne_nil (by simp)] at same
    apply stopsAt_row suits
    intro row member
    apply parts.each
    rw [inside]
    exact List.mem_append_left _ member

/-! ## Reading the replies to a pipeline -/

theorem drain_delivered {later : List BackendMessage} (unready : .readyForQuery ∉ later) {c : Connection}
    {rest : Bytes} (delivered : Delivers (later ++ [.readyForQuery]) c.incoming rest) :
    ∃ d, c.drain = (.ok (), d) ∧ c.Quiet d ∧ d.incoming = rest := by
  induction later generalizing c with
  | nil => exact drain_ready delivered
  | cons message later ih =>
    rw [List.mem_cons, not_or] at unready
    obtain ⟨d, received, quiet, delivered'⟩ := receive_delivered delivered
    obtain ⟨e, drained, quiet', read⟩ := ih unready.2 delivered'
    refine ⟨e, ?_, quiet.trans quiet', read⟩
    rw [drain_of_receive received]
    cases message with
    | readyForQuery => exact absurd rfl unready.1
    | _ => exact drained

theorem pipelineOf_cons {p : Binding σ × Plan} {messages : List FrontendMessage} (units : List (List Request)) :
    pipelineOf (p.1.requests messages :: units).flatten = messages ++ pipelineOf units.flatten := by
  simp [pipelineOf, Binding.request, Function.comp_def]

theorem Answered.sync {replies : List BackendMessage} {counts : List Nat}
    (answered : Answered [.sync] replies counts) : replies = [.readyForQuery] ∧ counts = [] := by
  cases answered with
  | other _ acknowledges none =>
    cases none
    cases acknowledges
    exact ⟨rfl, rfl⟩

theorem awaitAll_acknowledged {planned : List (Binding σ × Plan)} {units : List (List Request)}
    (made : List.Forall₂ (fun p unit => unit? p = some unit) planned units) {replies : List BackendMessage}
    {counts : List Nat} (answered : Answered (pipelineOf units.flatten) replies counts) {c : Connection}
    {rest : Bytes} (delivered : Delivers replies c.incoming rest) :
    ∃ d, awaitAll planned c = (.ok counts, sharedOut Binding.noted planned replies, d) ∧ c.Quiet d ∧
      d.incoming = rest := by
  induction made generalizing replies counts c with
  | nil =>
    obtain ⟨rfl, rfl⟩ := answered.sync
    obtain ⟨d, received, quiet, delivered'⟩ := receiveReply_delivered delivered (by simp)
    refine ⟨d, ?_, quiet, ?_⟩
    · rw [awaitAll, awaitReady, received, sharedOut]
      rfl
    · cases delivered'
      rfl
  | @cons p unit planned units first made ih =>
    obtain ⟨messages, isUnit, rfl⟩ := unit?_some first
    rw [pipelineOf_cons] at answered
    obtain ⟨one, more, some, others, before, behind, rfl, rfl⟩ := answered.of_append
    obtain ⟨affected, b, d, rfl, result, quiet, delivered', shared⟩ :=
      awaitUnit_acknowledged isUnit before delivered
    obtain ⟨e, result', quiet', read⟩ := ih behind delivered'
    refine ⟨e, ?_, quiet.trans quiet', read⟩
    rw [awaitAll_cons, result]
    dsimp only
    rw [result', shared]
    rfl

theorem awaitAll_refused {planned : List (Binding σ × Plan)} {units : List (List Request)}
    (made : List.Forall₂ (fun p unit => unit? p = some unit) planned units)
    {begun others more : List BackendMessage} {next : BackendMessage} {counts : List Nat}
    (answered : Answered (pipelineOf units.flatten) (begun ++ next :: others) counts) {report : Report}
    {c : Connection} {rest : Bytes} (delivered : Delivers (begun ++ .errorResponse report :: more) c.incoming rest) :
    ∃ d, awaitAll planned c = (.error (.server report), sharedOut Binding.noted planned begun, d) ∧ c.Quiet d ∧
      Delivers more d.incoming rest := by
  induction made generalizing begun counts c with
  | nil =>
    obtain ⟨only, -⟩ := answered.sync
    obtain ⟨rfl, -⟩ := List.append_eq_singleton_iff.1 only |>.resolve_right (by simp)
    obtain ⟨d, received, quiet, delivered'⟩ := receiveReply_error delivered
    refine ⟨d, ?_, quiet, delivered'⟩
    rw [awaitAll, awaitReady, received, sharedOut]
    rfl
  | @cons p unit planned units first made ih =>
    obtain ⟨messages, isUnit, rfl⟩ := unit?_some first
    rw [pipelineOf_cons] at answered
    obtain ⟨one, later, some, others', before, behind, split, rfl⟩ := answered.of_append
    rcases place_of_append split with ⟨missing, rfl⟩ | ⟨begun, rfl, rfl⟩
    · obtain ⟨b, d, result, quiet, delivered', shared⟩ := stopsAt_of_answered isUnit before delivered
      refine ⟨d, ?_, quiet, delivered'⟩
      rw [awaitAll_cons, result, shared]
    · rw [List.append_assoc] at delivered
      obtain ⟨affected, b, d, rfl, result, quiet, delivered', shared⟩ :=
        awaitUnit_acknowledged isUnit before delivered
      obtain ⟨e, result', quiet', delivered''⟩ := ih behind delivered'
      refine ⟨e, ?_, quiet.trans quiet', delivered''⟩
      rw [awaitAll_cons, result]
      dsimp only
      rw [result', shared]
      rfl

theorem mapM_plan {planned : List (Binding σ × Plan)} (plans : ∀ p ∈ planned, p.1.plan = .ok p.2) :
    (planned.map (·.1)).mapM Binding.plan = .ok (planned.map (·.2)) := by
  induction planned with
  | nil => rfl
  | cons p planned ih =>
    rw [List.map_cons, List.mapM_cons, plans p (by simp), ih fun q member => plans q (by simp [member])]
    rfl

theorem acknowledged_of_plans {planned : List (Binding σ × Plan)} (plans : ∀ p ∈ planned, p.1.plan = .ok p.2)
    (replies : List BackendMessage) :
    acknowledged (planned.map (·.1)) replies = sharedOut Binding.noted planned replies := by
  rw [acknowledged, mapM_plan plans]
  dsimp only
  rw [List.zip_map', List.map_id']

end

end ExtendedQuery
