import ExtendedQuery.Connection
import ExtendedQuery.Pipeline.Plan

/-!
# Replies to a pipeline

The server replies to the messages of a pipeline in order. Every reply is recorded in the statement as
soon as it is read, so after an error the statements are as far as the server has acknowledged.
-/

namespace ExtendedQuery

open Wire

inductive Awaited where
  | closed
  | parsed (types : List Oid)
  | parameterTypes
  | resultFields
  | bound
  deriving DecidableEq, Repr

def Awaited.phase : Awaited → Phase
  | .closed => .close
  | .parsed _ => .parse
  | .parameterTypes | .resultFields => .describe
  | .bound => .bind

def Plan.awaited (plan : Plan) : List Awaited :=
  (if plan.close then [.closed] else []) ++
    (if plan.parse then [.parsed plan.types] else []) ++
    (if plan.describe then [.parameterTypes, .resultFields] else []) ++ [.bound]

namespace Binding

variable {σ : Type} [Descriptor σ]

/-- Records a reply. Reported types go to the statement and to the parameters that have none. -/
def record (b : Binding σ) (awaited : Awaited) (reply : BackendMessage) :
    Except ProtocolError (Binding σ) :=
  match awaited, reply with
  | .closed, .closeComplete => .ok { b with statement := Descriptor.setPrepared none b.statement }
  | .parsed types, .parseComplete =>
    .ok { b with statement := Descriptor.setPrepared (some types) b.statement }
  | .parameterTypes, .parameterDescription count body =>
    (decodeOids count body).map fun oids =>
      ⟨Descriptor.setTypes oids b.statement, b.parameters.resolve oids⟩
  | .resultFields, .rowDescription count body =>
    (decodeFields count body).map fun fields =>
      { b with statement := Descriptor.setFields fields b.statement }
  | .resultFields, .noData => .ok { b with statement := Descriptor.setFields [] b.statement }
  | .bound, .bindComplete => .ok b
  | awaited, reply => .error (reply.unexpectedIn awaited.phase)

def await : (b : Binding σ) → List Awaited → Connection → Except Error Unit × Binding σ × Connection
  | b, [], c => (.ok (), b, c)
  | b, awaited :: later, c =>
    match c.receiveReply with
    | (.error e, c) => (.error e, b, c)
    | (.ok reply, c) =>
      match b.record awaited reply with
      | .error e => (.error (.protocol e), b, c)
      | .ok b => await b later c

end Binding

namespace Connection

theorem receiveReply_length_lt {c d : Connection} {reply : BackendMessage}
    (h : c.receiveReply = (.ok reply, d)) : d.incoming.length < c.incoming.length := by
  unfold receiveReply at h
  split at h
  · cases h
  · exact receive_length_lt h

/-- Reads the rows of a result and the message that ends them, and returns the rows affected: as the
command tag counts them, or the rows read if the server stopped before the end. -/
def awaitCompletion (rows : Nat) (c : Connection) : Except Error Nat × Connection :=
  match _received : c.receiveReply with
  | (.error e, d) => (.error e, d)
  | (.ok (.dataRow _ _), d) => awaitCompletion (rows + 1) d
  | (.ok (.commandComplete tag), d) => (.ok (rowsAffected tag), d)
  | (.ok .emptyQueryResponse, d) => (.ok 0, d)
  | (.ok .portalSuspended, d) => (.ok rows, d)
  | (.ok reply, d) => (.error (.protocol (reply.unexpectedIn .execute)), d)
termination_by c.incoming.length
decreasing_by exact receiveReply_length_lt _received

def awaitReady (c : Connection) : Except Error Unit × Connection :=
  match c.receiveReply with
  | (.error e, c) => (.error e, c)
  | (.ok .readyForQuery, c) => (.ok (), c)
  | (.ok reply, c) => (.error (.protocol (reply.unexpectedIn .sync)), c)

end Connection

def awaitAll {σ : Type} [Descriptor σ] :
    (planned : List (Binding σ × Plan)) → Connection →
      Except Error (List Nat) × List (Binding σ) × Connection
  | [], c =>
    let (outcome, c) := c.awaitReady
    (outcome.map fun _ => [], [], c)
  | (b, plan) :: later, c =>
    match b.await plan.awaited c with
    | (.error e, b, c) => (.error e, b :: later.map (·.1), c)
    | (.ok (), b, c) =>
      match c.awaitCompletion 0 with
      | (.error e, c) => (.error e, b :: later.map (·.1), c)
      | (.ok affected, c) =>
        let (outcome, bindings, c) := awaitAll later c
        (outcome.map (affected :: ·), b :: bindings, c)

end ExtendedQuery
