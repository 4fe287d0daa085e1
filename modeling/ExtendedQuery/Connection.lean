import ExtendedQuery.Capabilities
import ExtendedQuery.Error
import ExtendedQuery.Wire.Frontend

/-!
# Connections

A connection holds the bytes that the server has sent and that were not read yet, what it was sent, and
what is known of it. Receiving returns the next message; notices are left out, and a reported setting
changes the capabilities and is left out as well. A message that is not complete leaves the bytes that
are there, but for its header if that was complete.

Main statement: `Connection.receive_length_lt`, a message that is received was taken from the input.
-/

namespace ExtendedQuery

open Wire

structure Connection where
  incoming : Bytes
  /-- What the server was sent, one entry for each write. -/
  sent : List Bytes
  writable : Bool
  capabilities : Capabilities
  deriving DecidableEq, Repr

namespace Connection

def new (capabilities : Capabilities) : Connection := ⟨[], [], true, capabilities⟩

def send (c : Connection) (bytes : Bytes) : Except TransportError Connection :=
  if c.writable then .ok { c with sent := c.sent ++ [bytes] } else .error .brokenPipe

def sendMessage (c : Connection) (message : FrontendMessage) : Except Error Connection :=
  match message.frame? with
  | none => .error .oversized
  | some bytes => (c.send bytes).mapError .transport

def take? (c : Connection) (count : Nat) : Option (Bytes × Connection) :=
  let taken := c.incoming.take count
  if taken.length = count then some (taken, { c with incoming := c.incoming.drop count }) else none

def readFrame (c : Connection) : Except Error (UInt8 × Bytes) × Connection :=
  match c.take? 5 with
  | none => (.error (.transport .endOfInput), c)
  | some (header, c) =>
    let length := Bytes.value (header.drop 1)
    if length < 4 then (.error (.protocol (.malformed .lengthTooSmall)), c)
    else
      match c.take? (length - 4) with
      | none => (.error (.transport .endOfInput), c)
      | some (body, c) => (.ok (header.headD 0, body), c)

theorem take?_incoming {c d : Connection} {count : Nat} {taken : Bytes}
    (h : c.take? count = some (taken, d)) : d.incoming.length + count = c.incoming.length := by
  unfold take? at h
  dsimp only at h
  split at h
  · rename_i enough
    cases h
    rw [List.length_take] at enough
    simp only [List.length_drop]
    omega
  · cases h

theorem readFrame_incoming {c d : Connection} {frame : UInt8 × Bytes}
    (h : c.readFrame = (.ok frame, d)) : d.incoming.length < c.incoming.length := by
  unfold readFrame at h
  split at h
  · cases h
  · rename_i header e read
    have first := take?_incoming read
    dsimp only at h
    split at h
    · cases h
    · split at h
      · cases h
      · rename_i body f read
        have second := take?_incoming read
        cases h
        omega

def decodeExpected (expected : Option BackendKind) (typeByte : UInt8) (body : Bytes) :
    Except ProtocolError BackendMessage :=
  match expected with
  | some kind => BackendMessage.decodeAs kind typeByte body
  | none => BackendMessage.decode typeByte body

/-- The next message that is neither a notice nor the report of a setting. -/
def receiveExpected (expected : Option BackendKind) (c : Connection) :
    Except Error BackendMessage × Connection :=
  match _read : c.readFrame with
  | (.error e, d) => (.error e, d)
  | (.ok (typeByte, body), d) =>
    if typeByte = BackendKind.noticeResponse.typeByte then receiveExpected expected d
    else if typeByte = BackendKind.parameterStatus.typeByte then
      match BackendMessage.ofBody .parameterStatus body with
      | .ok (.parameterStatus name value) =>
        receiveExpected expected { d with capabilities := d.capabilities.report name value }
      | .ok _ => receiveExpected expected d
      | .error e => (.error (.protocol e), d)
    else ((decodeExpected expected typeByte body).mapError .protocol, d)
termination_by c.incoming.length
decreasing_by all_goals exact readFrame_incoming _read

def receive (c : Connection) : Except Error BackendMessage × Connection := receiveExpected none c

def receiveReply (c : Connection) : Except Error BackendMessage × Connection :=
  match c.receive with
  | (.ok (.errorResponse report), c) => (.error (.server report), c)
  | outcome => outcome

theorem receive_length_lt {c d : Connection} {message : BackendMessage}
    (h : c.receive = (.ok message, d)) : d.incoming.length < c.incoming.length := by
  unfold receive at h
  fun_induction receiveExpected none c with
  | case1 => cases h
  | case2 c d body read ih =>
    have := readFrame_incoming read
    have := ih h
    omega
  | case3 c body d name value _ read _ ih =>
    have := readFrame_incoming read
    have := ih h
    dsimp only at this
    omega
  | case4 c body d _ _ _ read _ ih =>
    have := readFrame_incoming read
    have := ih h
    omega
  | case5 => cases h
  | case6 c typeByte body d read =>
    have := readFrame_incoming read
    obtain ⟨-, rfl⟩ := Prod.mk.inj h
    omega

def drain (c : Connection) : Except Error Unit × Connection :=
  match _received : c.receive with
  | (.error e, d) => (.error e, d)
  | (.ok .readyForQuery, d) => (.ok (), d)
  | (.ok _, d) => drain d
termination_by c.incoming.length
decreasing_by exact receive_length_lt _received

/-- An outcome after the connection was brought back in step: what an error of the server leaves to be
read is read, and an error in doing so takes its place. -/
def resynchronise {α : Type} (outcome : Except Error α) (c : Connection) :
    Except Error α × Connection :=
  match outcome with
  | .error (.server report) =>
    match c.drain with
    | (.ok (), c) => (.error (.server report), c)
    | (.error e, c) => (.error e, c)
  | outcome => (outcome, c)

end Connection

end ExtendedQuery
