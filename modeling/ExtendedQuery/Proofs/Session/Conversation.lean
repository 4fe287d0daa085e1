import ExtendedQuery.Proofs.Pipeline.Exchange

/-!
# Conversations

A call sends pipelines one after the other, and reads all replies to one before it sends the next
(`Converses`). A call settles with the server (`Settles`) if the server can follow every pipeline, and if
afterwards everything that was replied has been read and what is recorded fits what the server holds.
Calls that settle can be made one after the other (`Settles.append`).
-/

namespace ExtendedQuery

open Wire

inductive Converses : Server → List (List Request) → (incoming : Bytes) → Server → (rest : Bytes) → Prop
  | nil {server : Server} {incoming : Bytes} : Converses server [] incoming server incoming
  | cons {server server' last : Server} {requests : List Request} {later : List (List Request)}
      {replies : List BackendMessage} {incoming middle rest : Bytes} :
      server.Runs (pipelineOf requests) replies server' → Delivers replies incoming middle →
      Converses server' later middle last rest → Converses server (requests :: later) incoming last rest

/-- The server can follow each pipeline, whatever it has replied to those before. -/
def Obeys : Server → List (List Request) → (incoming : Bytes) → Prop
  | _, [], _ => True
  | server, requests :: later, incoming =>
    Obeyed server.held requests ∧
      ∀ replies server' rest, server.Runs (pipelineOf requests) replies server' →
        Delivers replies incoming rest → Obeys server' later rest

def Sends (c : Connection) (pipelines : List (List Request)) (d : Connection) : Prop :=
  ∃ writes, d.sent = c.sent ++ writes ∧
    List.Forall₂ (fun requests bytes => FrontendMessage.writeAll? (pipelineOf requests) [] = some bytes)
      pipelines writes

structure Settled (c : Connection) (pipelines : List (List Request)) (d : Connection)
    (after : Holdings → Prop) (server : Server) (rest : Bytes) : Prop where
  sent : Sends c pipelines d
  writable : d.writable = true
  read : d.incoming = rest
  ready : server.skipping = false
  after : after server.held

structure Settles (held : Holdings) (c : Connection) (pipelines : List (List Request)) (d : Connection)
    (after : Holdings → Prop) : Prop where
  obeys : Obeys ⟨held, false⟩ pipelines c.incoming
  settled : ∀ {server rest}, Converses ⟨held, false⟩ pipelines c.incoming server rest →
    Settled c pipelines d after server rest

theorem Converses.of_append {s t : Server} {a b : List (List Request)} {incoming rest : Bytes}
    (converses : Converses s (a ++ b) incoming t rest) :
    ∃ server middle, Converses s a incoming server middle ∧ Converses server b middle t rest := by
  induction a generalizing s incoming with
  | nil => exact ⟨s, incoming, .nil, converses⟩
  | cons requests a ih =>
    cases converses with
    | cons runs delivered later =>
      obtain ⟨server, middle, first, second⟩ := ih later
      exact ⟨server, middle, .cons runs delivered first, second⟩

theorem Obeys.append {s : Server} {a b : List (List Request)} {incoming : Bytes}
    (first : Obeys s a incoming)
    (second : ∀ server rest, Converses s a incoming server rest → Obeys server b rest) :
    Obeys s (a ++ b) incoming := by
  induction a generalizing s incoming with
  | nil => exact second s incoming .nil
  | cons requests a ih =>
    refine ⟨first.1, fun replies server rest runs delivered => ?_⟩
    refine ih (first.2 replies server rest runs delivered) fun last rest' converses => ?_
    exact second last rest' (.cons runs delivered converses)

theorem Sends.append {c d e : Connection} {a b : List (List Request)} (first : Sends c a d)
    (second : Sends d b e) : Sends c (a ++ b) e := by
  obtain ⟨writes, sent, written⟩ := first
  obtain ⟨later, sent', written'⟩ := second
  refine ⟨writes ++ later, ?_, List.rel_append written written'⟩
  rw [sent', sent, List.append_assoc]

namespace Settles

variable {held : Holdings} {c d e : Connection} {after : Holdings → Prop}

theorem nothing (writable : c.writable = true) (now : after held) : Settles held c [] c after where
  obeys := trivial
  settled converses := by
    cases converses
    exact ⟨⟨[], (List.append_nil _).symm, .nil⟩, writable, rfl, rfl, now⟩

theorem mono {pipelines : List (List Request)} {after' : Holdings → Prop}
    (settles : Settles held c pipelines d after) (weaker : ∀ held', after held' → after' held') :
    Settles held c pipelines d after' where
  obeys := settles.obeys
  settled converses :=
    have settled := settles.settled converses
    { settled with after := weaker _ settled.after }

theorem append {a b : List (List Request)} {after' : Holdings → Prop} (first : Settles held c a d after)
    (second : ∀ held', d.writable = true → after held' → Settles held' d b e after') :
    Settles held c (a ++ b) e after' := by
  have later : ∀ server rest, Converses ⟨held, false⟩ a c.incoming server rest →
      Settles server.held d b e after' ∧ server = ⟨server.held, false⟩ ∧ d.incoming = rest := by
    intro server rest converses
    have settled := first.settled converses
    have ready := settled.ready
    obtain ⟨held', skipping⟩ := server
    cases ready
    exact ⟨second held' settled.writable settled.after, rfl, settled.read⟩
  constructor
  · refine first.obeys.append fun server rest converses => ?_
    obtain ⟨settles, same, rfl⟩ := later server rest converses
    rw [same]
    exact settles.obeys
  · intro server rest converses
    obtain ⟨middle, left, before, behind⟩ := converses.of_append
    obtain ⟨settles, same, rfl⟩ := later middle left before
    rw [same] at behind
    have settled := settles.settled behind
    exact { settled with sent := (first.settled before).sent.append settled.sent }

end Settles

section

variable {σ : Type} [Descriptor σ] [Tracked σ]

abbrev pipelines (bindings : List (Binding σ)) : List (List Request) := (requests? bindings).toList

theorem exchange_settles {bindings : List (Binding σ)} {held : Holdings}
    (agrees : ∀ b ∈ bindings, Tracked.Agrees held b.statement)
    (apart : bindings.Pairwise fun a b => Apart a.statement b.statement) {c : Connection}
    (writable : c.writable = true) :
    Settles held c (pipelines bindings) (exchange bindings c).2.2 fun held' =>
      List.Forall₂ (fun a b => Tracked.bare b.statement = Tracked.bare a.statement ∧
        Tracked.Agrees held' b.statement) bindings (exchange bindings c).2.1 ∧
      ∀ name, (∀ b ∈ bindings, name ≠ (Descriptor.name b.statement).text) → held' name = held name := by
  unfold pipelines
  cases sent : requests? bindings with
  | none =>
    obtain ⟨e, nothing⟩ := exchange_of_no_requests sent c
    rw [nothing]
    refine .nothing writable ⟨?_, fun _ _ => rfl⟩
    rw [List.forall₂_same]
    exact fun b member => ⟨rfl, agrees b member⟩
  | some requests =>
    refine ⟨⟨obeyed_requests sent agrees apart, fun _ _ _ _ _ => trivial⟩, fun converses => ?_⟩
    cases converses with
    | cons runs delivered later =>
      cases later
      obtain ⟨outcome, bindings', d, bytes, result, written, same, writable', read, ready, settled⟩ :=
        exchange_runs sent agrees apart writable runs delivered
      rw [result]
      exact ⟨⟨[bytes], same, .cons written .nil⟩, writable', read, ready, settled⟩

theorem exchangeOne_settles {s : σ} (parameters : ParameterList) {held : Holdings}
    (agrees : Tracked.Agrees held s) {c : Connection} (writable : c.writable = true) :
    Settles held c (pipelines [⟨s, parameters⟩]) (exchangeOne s parameters c).2.2 fun held' =>
      Tracked.bare (exchangeOne s parameters c).2.1.statement = Tracked.bare s ∧
      Tracked.Agrees held' (exchangeOne s parameters c).2.1.statement ∧
      ∀ name, name ≠ (Descriptor.name s).text → held' name = held name := by
  have one : ∀ b ∈ [(⟨s, parameters⟩ : Binding σ)], Tracked.Agrees held b.statement := by simpa using agrees
  refine (exchange_settles one (by simp) writable).mono fun held' settled => ?_
  obtain ⟨related, frame⟩ := settled
  unfold exchangeOne
  dsimp only
  generalize (exchange [(⟨s, parameters⟩ : Binding σ)] c).2.1 = bindings at related
  cases related with
  | cons first later =>
    cases later
    exact ⟨first.1, first.2, fun name different => frame name (by simpa using different)⟩

end

end ExtendedQuery
