import ExtendedQuery.Proofs.Server.Describing

/-!
# A server that types its statements

This server gives a statement types when it parses it, one for each placeholder of the text at least. It keeps the
types that are declared, and it reports the same types whenever it describes the statement (`TypingServer.Step`).
It replies to the messages of a pipeline one after the other, up to the end or up to a message in which it stops
(`TypingServer.Runs`).
-/

namespace ExtendedQuery

open Wire

namespace TypingServer

/-- Types for a statement that is parsed, where so many placeholders are found in each text. -/
structure Assigns (marks : String → Nat) (m : Parse) (types : List Oid) : Prop where
  enough : marks m.sql ≤ types.length
  kept {i : Nat} {oid : Oid} : m.types[i]? = some oid → oid ≠ Oid.unspecified → types[i]? = some oid

inductive Step (marks : String → Nat) (held : Holdings) :
    FrontendMessage → List BackendMessage → Holdings → Prop
  | close {name : String} :
      Step marks held (.close statementTarget name) [.closeComplete] (Function.update held name none)
  | parse {m : Parse} {types : List Oid} : Assigns marks m types →
      Step marks held (.parse m) [.parseComplete] (Function.update held m.name (some ⟨m.sql, types⟩))
  | describe {name : String} {statement : Held} {count : UInt16} {body : Bytes} {result : BackendMessage} :
      held name = some statement → decodeOids count body = .ok statement.types → IsResult result →
      Step marks held (.describe statementTarget name) [.parameterDescription count body, result] held
  | bind {m : Bind} : Step marks held (.bind m) [.bindComplete] held
  | execute {portal : String} {limit : UInt32} {rows : List BackendMessage} {ending : BackendMessage}
      {affected : Nat} : (∀ row ∈ rows, IsRow row) → Completes rows.length ending affected →
      Step marks held (.execute portal limit) (rows ++ [ending]) held
  | sync : Step marks held .sync [.readyForQuery] held

inductive Begins (held : Holdings) : FrontendMessage → List BackendMessage → Prop
  | nothing {message : FrontendMessage} : Begins held message []
  | describe {name : String} {statement : Held} {count : UInt16} {body : Bytes} : held name = some statement →
      decodeOids count body = .ok statement.types →
      Begins held (.describe statementTarget name) [.parameterDescription count body]
  | execute {portal : String} {limit : UInt32} {rows : List BackendMessage} : (∀ row ∈ rows, IsRow row) →
      Begins held (.execute portal limit) rows

/-- The replies to messages, with whether all messages were served. -/
inductive Runs (marks : String → Nat) :
    Holdings → List FrontendMessage → List BackendMessage → (whole : Bool) → Holdings → Prop
  | nil {held : Holdings} : Runs marks held [] [] true held
  | stop {held : Holdings} {message : FrontendMessage} {messages : List FrontendMessage}
      {begun : List BackendMessage} : Begins held message begun →
      Runs marks held (message :: messages) begun false held
  | cons {held held' last : Holdings} {message : FrontendMessage} {messages : List FrontendMessage}
      {replies later : List BackendMessage} {whole : Bool} : Step marks held message replies held' →
      Runs marks held' messages later whole last →
      Runs marks held (message :: messages) (replies ++ later) whole last

variable {marks : String → Nat} {held held' last : Holdings} {message : FrontendMessage}
  {messages a b : List FrontendMessage} {replies : List BackendMessage} {whole : Bool}

theorem Runs.of_append (runs : Runs marks held (a ++ b) replies whole last) :
    (whole = false ∧ Runs marks held a replies false last) ∨
      ∃ middle first second, Runs marks held a first true middle ∧ Runs marks middle b second whole last ∧
        replies = first ++ second := by
  induction a generalizing held replies with
  | nil => exact .inr ⟨held, [], replies, .nil, runs, rfl⟩
  | cons message a ih =>
    cases runs with
    | stop begins => exact .inl ⟨rfl, .stop begins⟩
    | cons step later =>
      rcases ih later with ⟨rfl, inside⟩ | ⟨middle, first, second, front, back, rfl⟩
      · exact .inl ⟨rfl, .cons step inside⟩
      · exact .inr ⟨middle, _, second, .cons step front, back, (List.append_assoc _ _ _).symm⟩

theorem Step.frame (step : Step marks held message replies held') {other : String}
    (avoids : Avoids other message) : held' other = held other := by
  cases step with
  | close => exact Function.update_of_ne avoids.symm _ _
  | parse => exact Function.update_of_ne avoids.symm _ _
  | _ => rfl

theorem Runs.frame (runs : Runs marks held messages replies whole last) {other : String}
    (avoids : ∀ m ∈ messages, Avoids other m) : last other = held other := by
  induction runs with
  | nil => rfl
  | stop => rfl
  | cons step _ ih =>
    rw [ih fun m member => avoids m (by simp [member])]
    exact step.frame (avoids _ (by simp))

theorem Step.acknowledges (step : Step marks held message replies held') : Acknowledges message replies := by
  cases step with
  | close => exact .close
  | parse => exact .parse
  | describe _ decoded result => exact .describe decoded result
  | bind => exact .bind
  | execute each completes => exact .execute each completes
  | sync => exact .sync

theorem Begins.acknowledges {begun : List BackendMessage} (begins : Begins held message begun) :
    ∃ next others, Acknowledges message (begun ++ next :: others) := by
  cases begins with
  | nothing => exact exists_acknowledges message
  | describe _ decoded => exact ⟨.noData, [], .describe decoded .noData⟩
  | execute each => exact ⟨.emptyQueryResponse, [], .execute each .empty⟩

theorem Runs.answered (runs : Runs marks held messages replies whole last) :
    ∃ owed counts, Answered messages (replies ++ owed) counts ∧ (owed = [] ↔ whole = true) := by
  induction runs with
  | nil => exact ⟨[], [], .nil, by simp⟩
  | @stop _ message messages begun begins =>
    obtain ⟨next, others, acknowledges⟩ := begins.acknowledges
    obtain ⟨later, counts, answered⟩ := exists_answered messages
    obtain ⟨counts', answered'⟩ := answered_cons acknowledges answered
    rw [List.append_assoc] at answered'
    exact ⟨next :: others ++ later, counts', answered', by simp⟩
  | cons step _ ih =>
    obtain ⟨owed, counts, answered, all⟩ := ih
    obtain ⟨counts', answered'⟩ := answered_cons step.acknowledges answered
    rw [← List.append_assoc] at answered'
    exact ⟨owed, counts', answered', all⟩

theorem Runs.served (runs : Runs marks held messages replies true last) :
    ∃ counts, Answered messages replies counts := by
  obtain ⟨owed, counts, answered, all⟩ := runs.answered
  obtain rfl := all.2 rfl
  rw [List.append_nil] at answered
  exact ⟨counts, answered⟩

theorem Runs.stopped (runs : Runs marks held messages replies false last) :
    ∃ next others counts, Answered messages (replies ++ next :: others) counts := by
  obtain ⟨owed, counts, answered, all⟩ := runs.answered
  cases owed with
  | nil => cases all.1 rfl
  | cons next others => exact ⟨next, others, counts, answered⟩

end TypingServer

end ExtendedQuery
