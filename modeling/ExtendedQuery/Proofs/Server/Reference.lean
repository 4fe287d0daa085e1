import ExtendedQuery.Proofs.Wire.Delivery
import Mathlib.Data.List.Forall2
import Mathlib.Logic.Function.Basic

/-!
# A reference server

The server keeps statements under names. It takes the messages of a pipeline in order: a message is
acknowledged by all of its replies, or refused by an error, before which a part of the replies may be
sent; after an error all messages are left out up to the next synchronisation (`Server.Step`). A
statement can be kept under a name only when the name is free, and the unnamed statement is always
replaced (`Accepts`).
-/

namespace ExtendedQuery

open Wire

inductive IsResult : BackendMessage → Prop
  | noData : IsResult .noData
  | fields {count : UInt16} {body : Bytes} {fields : List Field} : decodeFields count body = .ok fields →
      IsResult (.rowDescription count body)

inductive Completes (rows : Nat) : BackendMessage → (affected : Nat) → Prop
  | tag {tag : String} : Completes rows (.commandComplete tag) (rowsAffected tag)
  | empty : Completes rows .emptyQueryResponse 0
  | suspended : Completes rows .portalSuspended rows

def IsRow (message : BackendMessage) : Prop := ∃ columns body, message = .dataRow columns body

inductive Acknowledges : FrontendMessage → List BackendMessage → Prop
  | close {target : UInt8} {name : String} : Acknowledges (.close target name) [.closeComplete]
  | parse {m : Parse} : Acknowledges (.parse m) [.parseComplete]
  | describe {target : UInt8} {name : String} {count : UInt16} {body : Bytes} {types : List Oid}
      {result : BackendMessage} : decodeOids count body = .ok types → IsResult result →
      Acknowledges (.describe target name) [.parameterDescription count body, result]
  | bind {m : Bind} : Acknowledges (.bind m) [.bindComplete]
  | execute {portal : String} {limit : UInt32} {rows : List BackendMessage} {ending : BackendMessage}
      {affected : Nat} : (∀ row ∈ rows, IsRow row) → Completes rows.length ending affected →
      Acknowledges (.execute portal limit) (rows ++ [ending])
  | sync : Acknowledges .sync [.readyForQuery]

structure Held where
  sql : String
  types : List Oid

abbrev Holdings := String → Option Held

/-- Declared types are kept, and the ones left open are resolved. -/
def Resolves (declared resolved : List Oid) : Prop :=
  List.Forall₂ (fun d r => d = Oid.unspecified ∨ r = d) declared resolved

/-- What the server replies to a message that it does not refuse, and what it holds then. -/
inductive Accepts (held : Holdings) : FrontendMessage → List BackendMessage → Holdings → Prop
  | close {name : String} :
      Accepts held (.close statementTarget name) [.closeComplete] (Function.update held name none)
  | parse {m : Parse} {resolved : List Oid} : m.name = "" ∨ held m.name = none →
      Resolves m.types resolved →
      Accepts held (.parse m) [.parseComplete] (Function.update held m.name (some ⟨m.sql, resolved⟩))
  | describe {name : String} {statement : Held} {count : UInt16} {body : Bytes}
      {result : BackendMessage} : held name = some statement →
      decodeOids count body = .ok statement.types → IsResult result →
      Accepts held (.describe statementTarget name) [.parameterDescription count body, result] held
  | bind {m : Bind} {statement : Held} : held m.statement = some statement →
      Accepts held (.bind m) [.bindComplete] held
  | execute {portal : String} {limit : UInt32} {rows : List BackendMessage} {ending : BackendMessage}
      {affected : Nat} : (∀ row ∈ rows, IsRow row) → Completes rows.length ending affected →
      Accepts held (.execute portal limit) (rows ++ [ending]) held

/-- A part of the replies to a message that is refused in the end. -/
inductive Begins (held : Holdings) : FrontendMessage → List BackendMessage → Prop
  | nothing {message : FrontendMessage} : Begins held message []
  | describe {name : String} {statement : Held} {count : UInt16} {body : Bytes} :
      held name = some statement → decodeOids count body = .ok statement.types →
      Begins held (.describe statementTarget name) [.parameterDescription count body]
  | execute {portal : String} {limit : UInt32} {rows : List BackendMessage} :
      (∀ row ∈ rows, IsRow row) → Begins held (.execute portal limit) rows

structure Server where
  held : Holdings
  /-- After an error, until the next synchronisation. -/
  skipping : Bool

namespace Server

inductive Step : Server → FrontendMessage → List BackendMessage → Server → Prop
  | accept {held held' : Holdings} {message : FrontendMessage} {replies : List BackendMessage} :
      Accepts held message replies held' → Step ⟨held, false⟩ message replies ⟨held', false⟩
  | refuse {held : Holdings} {message : FrontendMessage} {begun : List BackendMessage} {report : Report} :
      message ≠ .sync → Begins held message begun →
      Step ⟨held, false⟩ message (begun ++ [.errorResponse report]) ⟨held, true⟩
  | skip {held : Holdings} {message : FrontendMessage} : message ≠ .sync →
      Step ⟨held, true⟩ message [] ⟨held, true⟩
  | ready {held : Holdings} {skipping : Bool} :
      Step ⟨held, skipping⟩ .sync [.readyForQuery] ⟨held, false⟩
  | unready {held : Holdings} {report : Report} :
      Step ⟨held, false⟩ .sync [.errorResponse report, .readyForQuery] ⟨held, false⟩

inductive Runs : Server → List FrontendMessage → List BackendMessage → Server → Prop
  | nil {s : Server} : Runs s [] [] s
  | cons {s t u : Server} {message : FrontendMessage} {messages : List FrontendMessage}
      {replies later : List BackendMessage} : Step s message replies t → Runs t messages later u →
      Runs s (message :: messages) (replies ++ later) u

theorem Runs.of_append {s u : Server} {a b : List FrontendMessage} {replies : List BackendMessage}
    (runs : Runs s (a ++ b) replies u) :
    ∃ t first second, Runs s a first t ∧ Runs t b second u ∧ replies = first ++ second := by
  induction a generalizing s replies with
  | nil => exact ⟨s, [], replies, .nil, runs, rfl⟩
  | cons message a ih =>
    cases runs with
    | cons step later =>
      obtain ⟨t, first, second, front, back, rfl⟩ := ih later
      exact ⟨t, _, second, .cons step front, back, by simp⟩

theorem Runs.skipping {held : Holdings} {messages : List FrontendMessage} {replies : List BackendMessage}
    {t : Server} (noSync : .sync ∉ messages) (runs : Runs ⟨held, true⟩ messages replies t) :
    replies = [] ∧ t = ⟨held, true⟩ := by
  induction messages generalizing replies with
  | nil => cases runs; exact ⟨rfl, rfl⟩
  | cons message messages ih =>
    rw [List.mem_cons, not_or] at noSync
    cases runs with
    | cons step later =>
      cases step with
      | skip =>
        obtain ⟨rfl, rfl⟩ := ih noSync.2 later
        exact ⟨rfl, rfl⟩
      | ready => exact absurd rfl noSync.1

theorem Runs.skipping_sync {held : Holdings} {messages : List FrontendMessage} {replies : List BackendMessage}
    {t : Server} (noSync : .sync ∉ messages) (runs : Runs ⟨held, true⟩ (messages ++ [.sync]) replies t) :
    replies = [.readyForQuery] ∧ t = ⟨held, false⟩ := by
  obtain ⟨middle, skipped, synced, front, last, rfl⟩ := runs.of_append
  obtain ⟨rfl, rfl⟩ := front.skipping noSync
  cases last with
  | cons step later =>
    cases later
    cases step with
    | skip other => exact absurd rfl other
    | ready => exact ⟨rfl, rfl⟩

end Server

theorem Accepts.acknowledges {held held' : Holdings} {message : FrontendMessage}
    {replies : List BackendMessage} (accepts : Accepts held message replies held') :
    Acknowledges message replies := by
  cases accepts with
  | close => exact .close
  | parse => exact .parse
  | describe _ decoded result => exact .describe decoded result
  | bind => exact .bind
  | execute rows ending => exact .execute rows ending

end ExtendedQuery
