import ExtendedQuery.Connection

/-!
# Messages that are delivered

The bytes that a connection has not read yet deliver messages if they hold the frames of the messages, one
after the other, with notices and reports of settings before any of them. Receiving takes one delivered
message and leaves the connection as it was otherwise, but for the capabilities (`receive_delivered`).
-/

namespace ExtendedQuery

open Wire

namespace Wire

def backendFrame (typeByte : UInt8) (body : Bytes) : Bytes :=
  typeByte :: Bytes.bigEndian 4 (4 + body.length) ++ body

/-- A notice, or the report of a setting. -/
def IsAside (typeByte : UInt8) (body : Bytes) : Prop :=
  typeByte = BackendKind.noticeResponse.typeByte ∨
    typeByte = BackendKind.parameterStatus.typeByte ∧
      ∃ message, BackendMessage.ofBody .parameterStatus body = .ok message

inductive Delivers : List BackendMessage → (incoming rest : Bytes) → Prop
  | nil {rest : Bytes} : Delivers [] rest rest
  | aside {typeByte : UInt8} {body : Bytes} {message : BackendMessage} {later : List BackendMessage}
      {incoming rest : Bytes} : IsAside typeByte body → 4 + body.length < UInt32.size →
      Delivers (message :: later) incoming rest →
      Delivers (message :: later) (backendFrame typeByte body ++ incoming) rest
  | message {typeByte : UInt8} {body : Bytes} {message : BackendMessage} {later : List BackendMessage}
      {incoming rest : Bytes} : typeByte ≠ BackendKind.noticeResponse.typeByte →
      typeByte ≠ BackendKind.parameterStatus.typeByte → 4 + body.length < UInt32.size →
      BackendMessage.decode typeByte body = .ok message → Delivers later incoming rest →
      Delivers (message :: later) (backendFrame typeByte body ++ incoming) rest

def frames (parts : List (UInt8 × Bytes)) : Bytes := parts.flatMap fun p => backendFrame p.1 p.2

theorem delivers_frames {parts : List (UInt8 × Bytes)} {messages : List BackendMessage}
    (plain : ∀ p ∈ parts, p.1 ≠ BackendKind.noticeResponse.typeByte ∧
      p.1 ≠ BackendKind.parameterStatus.typeByte ∧ 4 + p.2.length < UInt32.size)
    (decoded : parts.mapM (fun p => BackendMessage.decode p.1 p.2) = .ok messages) (rest : Bytes) :
    Delivers messages (frames parts ++ rest) rest := by
  induction parts generalizing messages with
  | nil =>
    cases decoded
    exact .nil
  | cons p parts ih =>
    rw [List.mapM_cons] at decoded
    cases first : BackendMessage.decode p.1 p.2 with
    | error e =>
      rw [first] at decoded
      cases decoded
    | ok message =>
      rw [first] at decoded
      cases later : parts.mapM (fun p => BackendMessage.decode p.1 p.2) with
      | error e =>
        rw [later] at decoded
        cases decoded
      | ok others =>
        rw [later] at decoded
        cases decoded
        obtain ⟨notice, status, size⟩ := plain p (by simp)
        rw [frames, List.flatMap_cons, List.append_assoc]
        exact .message notice status size first (ih (fun q member => plain q (by simp [member])) later)

end Wire

namespace Connection

structure Quiet (c d : Connection) : Prop where
  sent : d.sent = c.sent
  writable : d.writable = c.writable

theorem Quiet.refl (c : Connection) : c.Quiet c := ⟨rfl, rfl⟩

theorem Quiet.trans {c d e : Connection} (first : c.Quiet d) (second : d.Quiet e) : c.Quiet e :=
  ⟨second.sent.trans first.sent, second.writable.trans first.writable⟩

theorem take?_append {c : Connection} {taken rest : Bytes} (incoming : c.incoming = taken ++ rest) :
    c.take? taken.length = some (taken, { c with incoming := rest }) := by
  simp [take?, incoming]

theorem readFrame_frame {c : Connection} {typeByte : UInt8} {body rest : Bytes}
    (size : 4 + body.length < UInt32.size) (incoming : c.incoming = backendFrame typeByte body ++ rest) :
    c.readFrame = (.ok (typeByte, body), { c with incoming := rest }) := by
  have header : c.take? 5 = some (typeByte :: Bytes.bigEndian 4 (4 + body.length),
      { c with incoming := body ++ rest }) := by
    rw [← take?_append (c := c) (by simp [incoming, backendFrame])]
    simp
  have length : Bytes.value (Bytes.bigEndian 4 (4 + body.length)) = 4 + body.length := by
    rw [Bytes.value_bigEndian, Nat.mod_eq_of_lt]
    exact size
  have content : ({ c with incoming := body ++ rest } : Connection).take? (4 + body.length - 4) =
      some (body, { c with incoming := rest }) := by
    rw [Nat.add_sub_cancel_left, take?_append rfl]
  unfold readFrame
  rw [header]
  simp only [List.drop_succ_cons, List.drop_zero, length]
  rw [if_neg (by omega), content]
  rfl

theorem receiveExpected_of_readFrame {expected : Option BackendKind} {c d : Connection} {typeByte : UInt8}
    {body : Bytes} (read : c.readFrame = (.ok (typeByte, body), d)) :
    receiveExpected expected c =
      if typeByte = BackendKind.noticeResponse.typeByte then receiveExpected expected d
      else if typeByte = BackendKind.parameterStatus.typeByte then
        match BackendMessage.ofBody .parameterStatus body with
        | .ok (.parameterStatus name value) =>
          receiveExpected expected { d with capabilities := d.capabilities.report name value }
        | .ok _ => receiveExpected expected d
        | .error e => (.error (.protocol e), d)
      else ((decodeExpected expected typeByte body).mapError .protocol, d) := by
  rw [receiveExpected]
  split
  · rename_i failed
    rw [read] at failed
    cases failed
  · rename_i read'
    rw [read] at read'
    cases read'
    rfl

theorem receive_delivered {c : Connection} {message : BackendMessage} {later : List BackendMessage}
    {rest : Bytes} (delivered : Delivers (message :: later) c.incoming rest) :
    ∃ d, c.receive = (.ok message, d) ∧ c.Quiet d ∧ Delivers later d.incoming rest := by
  unfold receive
  generalize same : c.incoming = incoming at delivered
  generalize all : message :: later = messages at delivered
  induction delivered generalizing c with
  | nil => cases all
  | @aside typeByte body _ _ incoming rest isAside size delivered ih =>
    rw [receiveExpected_of_readFrame (readFrame_frame size same)]
    rcases isAside with rfl | ⟨rfl, status, decoded⟩
    · rw [if_pos rfl]
      obtain ⟨d, received, quiet, later⟩ := ih (c := { c with incoming := incoming }) rfl all
      exact ⟨d, received, ⟨quiet.sent, quiet.writable⟩, later⟩
    · rw [if_neg (by decide), if_pos rfl, decoded]
      split
      · rename_i name value _
        obtain ⟨d, received, quiet, later⟩ := ih (c := { c with
          incoming := incoming, capabilities := c.capabilities.report name value }) rfl all
        exact ⟨d, received, ⟨quiet.sent, quiet.writable⟩, later⟩
      · obtain ⟨d, received, quiet, later⟩ := ih (c := { c with incoming := incoming }) rfl all
        exact ⟨d, received, ⟨quiet.sent, quiet.writable⟩, later⟩
      · rename_i impossible
        cases impossible
  | message notNotice notStatus size decoded delivered ih =>
    cases all
    rw [receiveExpected_of_readFrame (readFrame_frame size same), if_neg notNotice, if_neg notStatus,
      decodeExpected, decoded]
    exact ⟨_, rfl, ⟨rfl, rfl⟩, delivered⟩

theorem receiveReply_delivered {c : Connection} {message : BackendMessage} {later : List BackendMessage}
    {rest : Bytes} (delivered : Delivers (message :: later) c.incoming rest)
    (noError : ∀ report, message ≠ .errorResponse report) :
    ∃ d, c.receiveReply = (.ok message, d) ∧ c.Quiet d ∧ Delivers later d.incoming rest := by
  obtain ⟨d, received, quiet, delivered⟩ := receive_delivered delivered
  refine ⟨d, ?_, quiet, delivered⟩
  rw [receiveReply, received]
  cases message with
  | errorResponse report => exact absurd rfl (noError report)
  | _ => rfl

theorem receiveReply_error {c : Connection} {report : Report} {later : List BackendMessage}
    {rest : Bytes} (delivered : Delivers (.errorResponse report :: later) c.incoming rest) :
    ∃ d, c.receiveReply = (.error (.server report), d) ∧ c.Quiet d ∧ Delivers later d.incoming rest := by
  obtain ⟨d, received, quiet, delivered⟩ := receive_delivered delivered
  exact ⟨d, by rw [receiveReply, received], quiet, delivered⟩

end Connection

end ExtendedQuery
