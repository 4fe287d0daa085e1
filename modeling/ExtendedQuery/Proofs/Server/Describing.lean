import ExtendedQuery.Proofs.Pipeline.Acknowledged

/-!
# A server that describes by declaration

What this server reports of a statement depends on its text and on the types that it was parsed with, and on
nothing else (`Describer`). It serves the messages of a pipeline one after the other (`ServesAll`), or stops in
one of them and replies no more to it than what it has begun (`ServesPart`); both are replies of a server that
acknowledges (`ServesAll.answered`, `ServesPart.answered`).
-/

namespace ExtendedQuery

open Wire

structure Declaration where
  sql : String
  types : List Oid

abbrev Declarations := String → Option Declaration

structure Description where
  types : List Oid
  fields : List Field

abbrev Describer := Declaration → Description

inductive Results : List Field → BackendMessage → Prop
  | noData : Results [] .noData
  | fields {count : UInt16} {body : Bytes} {fields : List Field} : decodeFields count body = .ok fields →
      Results fields (.rowDescription count body)

inductive Serves (describe : Describer) (held : Declarations) :
    FrontendMessage → List BackendMessage → Declarations → Prop
  | close {name : String} :
      Serves describe held (.close statementTarget name) [.closeComplete] (Function.update held name none)
  | parse {m : Parse} :
      Serves describe held (.parse m) [.parseComplete] (Function.update held m.name (some ⟨m.sql, m.types⟩))
  | describe {name : String} {d : Declaration} {count : UInt16} {body : Bytes} {result : BackendMessage} :
      held name = some d → decodeOids count body = .ok (describe d).types → Results (describe d).fields result →
      Serves describe held (.describe statementTarget name) [.parameterDescription count body, result] held
  | bind {m : Bind} : Serves describe held (.bind m) [.bindComplete] held
  | execute {portal : String} {limit : UInt32} {rows : List BackendMessage} {ending : BackendMessage}
      {affected : Nat} : (∀ row ∈ rows, IsRow row) → Completes rows.length ending affected →
      Serves describe held (.execute portal limit) (rows ++ [ending]) held
  | sync : Serves describe held .sync [.readyForQuery] held

inductive Starts (describe : Describer) (held : Declarations) : FrontendMessage → List BackendMessage → Prop
  | nothing {message : FrontendMessage} : Starts describe held message []
  | describe {name : String} {d : Declaration} {count : UInt16} {body : Bytes} : held name = some d →
      decodeOids count body = .ok (describe d).types →
      Starts describe held (.describe statementTarget name) [.parameterDescription count body]
  | execute {portal : String} {limit : UInt32} {rows : List BackendMessage} : (∀ row ∈ rows, IsRow row) →
      Starts describe held (.execute portal limit) rows

inductive ServesAll (describe : Describer) :
    Declarations → List FrontendMessage → List BackendMessage → Declarations → Prop
  | nil {held : Declarations} : ServesAll describe held [] [] held
  | cons {held held' last : Declarations} {message : FrontendMessage} {messages : List FrontendMessage}
      {replies later : List BackendMessage} : Serves describe held message replies held' →
      ServesAll describe held' messages later last →
      ServesAll describe held (message :: messages) (replies ++ later) last

inductive ServesPart (describe : Describer) :
    Declarations → List FrontendMessage → List BackendMessage → Declarations → Prop
  | stop {held : Declarations} {message : FrontendMessage} {messages : List FrontendMessage}
      {begun : List BackendMessage} : Starts describe held message begun →
      ServesPart describe held (message :: messages) begun held
  | cons {held held' last : Declarations} {message : FrontendMessage} {messages : List FrontendMessage}
      {replies later : List BackendMessage} : Serves describe held message replies held' →
      ServesPart describe held' messages later last →
      ServesPart describe held (message :: messages) (replies ++ later) last

variable {describe : Describer} {held held' last : Declarations} {message : FrontendMessage}
  {messages a b : List FrontendMessage} {replies : List BackendMessage}

theorem ServesAll.of_append (serves : ServesAll describe held (a ++ b) replies last) :
    ∃ middle first second, ServesAll describe held a first middle ∧ ServesAll describe middle b second last ∧
      replies = first ++ second := by
  induction a generalizing held replies with
  | nil => exact ⟨held, [], replies, .nil, serves, rfl⟩
  | cons message a ih =>
    cases serves with
    | cons one later =>
      obtain ⟨middle, first, second, front, back, rfl⟩ := ih later
      exact ⟨middle, _, second, .cons one front, back, (List.append_assoc _ _ _).symm⟩

theorem ServesPart.of_append (serves : ServesPart describe held (a ++ b) replies last) :
    ServesPart describe held a replies last ∨
      ∃ middle first second, ServesAll describe held a first middle ∧ ServesPart describe middle b second last ∧
        replies = first ++ second := by
  induction a generalizing held replies with
  | nil => exact .inr ⟨held, [], replies, .nil, serves, rfl⟩
  | cons message a ih =>
    cases serves with
    | stop starts => exact .inl (.stop starts)
    | cons one later =>
      rcases ih later with inside | ⟨middle, first, second, front, back, rfl⟩
      · exact .inl (.cons one inside)
      · exact .inr ⟨middle, _, second, .cons one front, back, (List.append_assoc _ _ _).symm⟩

def Avoids (other : String) : FrontendMessage → Prop
  | .close _ name => name ≠ other
  | .parse m => m.name ≠ other
  | _ => True

theorem Concerns.avoids {name sql other : String} (concerns : Concerns name sql message)
    (different : other ≠ name) : Avoids other message := by
  cases message with
  | close target closed =>
    cases concerns
    exact different.symm
  | parse m =>
    obtain ⟨rfl, -⟩ := concerns
    exact different.symm
  | _ => trivial

theorem IsUnitOf.avoids {σ : Type} [Descriptor σ] {b : Binding σ} {plan : Plan} (unit : IsUnitOf b plan messages)
    {other : String} (different : other ≠ (Descriptor.name b.statement).text) : ∀ m ∈ messages, Avoids other m :=
  fun m member => (unit.concerns m member).avoids different

theorem avoids_pipeline {σ : Type} [Descriptor σ] {planned : List (Binding σ × Plan)} {units : List (List Request)}
    (made : List.Forall₂ (fun p unit => unit? p = some unit) planned units) {other : String}
    (different : ∀ p ∈ planned, other ≠ (Descriptor.name p.1.statement).text) :
    ∀ m ∈ pipelineOf units.flatten, Avoids other m := by
  induction made with
  | nil =>
    intro m member
    cases List.mem_singleton.1 member
    trivial
  | @cons p unit planned units first _ ih =>
    obtain ⟨messages, isUnit, rfl⟩ := unit?_some first
    rw [pipelineOf_cons]
    intro m member
    rcases List.mem_append.1 member with inside | inside
    · exact isUnit.avoids (different p (by simp)) m inside
    · exact ih (fun q among => different q (by simp [among])) m inside

theorem Serves.frame (serves : Serves describe held message replies held') {other : String}
    (avoids : Avoids other message) : held' other = held other := by
  cases serves with
  | close => exact Function.update_of_ne avoids.symm _ _
  | parse => exact Function.update_of_ne avoids.symm _ _
  | _ => rfl

theorem ServesAll.frame (serves : ServesAll describe held messages replies last) {other : String}
    (avoids : ∀ m ∈ messages, Avoids other m) : last other = held other := by
  induction serves with
  | nil => rfl
  | cons one _ ih =>
    rw [ih fun m member => avoids m (by simp [member])]
    exact one.frame (avoids _ (by simp))

theorem ServesPart.frame (serves : ServesPart describe held messages replies last) {other : String}
    (avoids : ∀ m ∈ messages, Avoids other m) : last other = held other := by
  induction serves with
  | stop => rfl
  | cons one _ ih =>
    rw [ih fun m member => avoids m (by simp [member])]
    exact one.frame (avoids _ (by simp))

theorem Results.isResult {fields : List Field} {result : BackendMessage} (results : Results fields result) :
    IsResult result := by
  cases results with
  | noData => exact .noData
  | fields decoded => exact .fields decoded

theorem Serves.acknowledges (serves : Serves describe held message replies held') :
    Acknowledges message replies := by
  cases serves with
  | close => exact .close
  | parse => exact .parse
  | describe _ decoded results => exact .describe decoded results.isResult
  | bind => exact .bind
  | execute each completes => exact .execute each completes
  | sync => exact .sync

theorem answered_cons (acknowledges : Acknowledges message replies) {later : List BackendMessage}
    {counts : List Nat} (answered : Answered messages later counts) :
    ∃ counts', Answered (message :: messages) (replies ++ later) counts' := by
  cases acknowledges with
  | execute each completes => exact ⟨_, .execute each completes answered⟩
  | close => exact ⟨counts, .other (by simp) .close answered⟩
  | parse => exact ⟨counts, .other (by simp) .parse answered⟩
  | describe decoded result => exact ⟨counts, .other (by simp) (.describe decoded result) answered⟩
  | bind => exact ⟨counts, .other (by simp) .bind answered⟩
  | sync => exact ⟨counts, .other (by simp) .sync answered⟩

theorem exists_acknowledges (message : FrontendMessage) :
    ∃ reply replies, Acknowledges message (reply :: replies) := by
  have decoded : decodeOids 0 [] = .ok [] := by rfl
  cases message with
  | parse m => exact ⟨_, _, .parse⟩
  | bind m => exact ⟨_, _, .bind⟩
  | execute portal limit =>
    have none : ∀ row ∈ ([] : List BackendMessage), IsRow row := by simp
    exact ⟨.emptyQueryResponse, [], .execute none .empty⟩
  | describe target name => exact ⟨_, _, .describe decoded .noData⟩
  | close target name => exact ⟨_, _, .close⟩
  | sync => exact ⟨_, _, .sync⟩

theorem exists_answered (messages : List FrontendMessage) : ∃ replies counts, Answered messages replies counts := by
  induction messages with
  | nil => exact ⟨[], [], .nil⟩
  | cons message messages ih =>
    obtain ⟨reply, replies, acknowledges⟩ := exists_acknowledges message
    obtain ⟨later, counts, answered⟩ := ih
    obtain ⟨counts', answered'⟩ := answered_cons acknowledges answered
    exact ⟨_, counts', answered'⟩

theorem Starts.acknowledges {begun : List BackendMessage} (starts : Starts describe held message begun) :
    ∃ next others, Acknowledges message (begun ++ next :: others) := by
  cases starts with
  | nothing => exact exists_acknowledges message
  | describe _ decoded => exact ⟨.noData, [], .describe decoded .noData⟩
  | execute each => exact ⟨.emptyQueryResponse, [], .execute each .empty⟩

theorem ServesAll.answered (serves : ServesAll describe held messages replies last) :
    ∃ counts, Answered messages replies counts := by
  induction serves with
  | nil => exact ⟨[], .nil⟩
  | cons one _ ih =>
    obtain ⟨counts, answered⟩ := ih
    exact answered_cons one.acknowledges answered

theorem ServesPart.answered (serves : ServesPart describe held messages replies last) :
    ∃ next others counts, Answered messages (replies ++ next :: others) counts := by
  induction serves with
  | @stop _ message messages begun starts =>
    obtain ⟨next, others, acknowledges⟩ := starts.acknowledges
    obtain ⟨later, counts, answered⟩ := exists_answered messages
    obtain ⟨counts', answered'⟩ := answered_cons acknowledges answered
    rw [List.append_assoc] at answered'
    exact ⟨next, others ++ later, counts', answered'⟩
  | cons one _ ih =>
    obtain ⟨next, others, counts, answered⟩ := ih
    obtain ⟨counts', answered'⟩ := answered_cons one.acknowledges answered
    rw [← List.append_assoc] at answered'
    exact ⟨next, others, counts', answered'⟩

end ExtendedQuery
