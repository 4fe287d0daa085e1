import ExtendedQuery.Bytes
import ExtendedQuery.Decimal.Basic
import ExtendedQuery.Oid
import ExtendedQuery.Statement.Field
import ExtendedQuery.Text.Blank

/-!
# Messages from the server

What the server sends is not trusted: a body that is too short or holds no text where text is due is an
error, and what follows a complete body is left aside. Descriptions are decoded on demand, from the body
that follows their count.
-/

namespace ExtendedQuery.Wire

inductive BackendKind where
  | bindComplete
  | closeComplete
  | commandComplete
  | dataRow
  | errorResponse
  | emptyQueryResponse
  | noData
  | noticeResponse
  | parameterDescription
  | parameterStatus
  | parseComplete
  | portalSuspended
  | readyForQuery
  | rowDescription
  deriving DecidableEq, Repr

namespace BackendKind

def all : List BackendKind :=
  [.bindComplete, .closeComplete, .commandComplete, .dataRow, .errorResponse, .emptyQueryResponse,
   .noData, .noticeResponse, .parameterDescription, .parameterStatus, .parseComplete,
   .portalSuspended, .readyForQuery, .rowDescription]

def letter : BackendKind → Char
  | .bindComplete => '2'
  | .closeComplete => '3'
  | .commandComplete => 'C'
  | .dataRow => 'D'
  | .errorResponse => 'E'
  | .emptyQueryResponse => 'I'
  | .noData => 'n'
  | .noticeResponse => 'N'
  | .parameterDescription => 't'
  | .parameterStatus => 'S'
  | .parseComplete => '1'
  | .portalSuspended => 's'
  | .readyForQuery => 'Z'
  | .rowDescription => 'T'

def typeByte (kind : BackendKind) : UInt8 := kind.letter.toUInt8

def name : BackendKind → String
  | .bindComplete => "BindComplete"
  | .closeComplete => "CloseComplete"
  | .commandComplete => "CommandComplete"
  | .dataRow => "DataRow"
  | .errorResponse => "ErrorResponse"
  | .emptyQueryResponse => "EmptyQueryResponse"
  | .noData => "NoData"
  | .noticeResponse => "NoticeResponse"
  | .parameterDescription => "ParameterDescription"
  | .parameterStatus => "ParameterStatus"
  | .parseComplete => "ParseComplete"
  | .portalSuspended => "PortalSuspended"
  | .readyForQuery => "ReadyForQuery"
  | .rowDescription => "RowDescription"

def ofTypeByte? (b : UInt8) : Option BackendKind := all.find? (·.typeByte == b)

def nameOf (b : UInt8) : String :=
  match ofTypeByte? b with
  | some kind => kind.name
  | none => "Unknown"

end BackendKind

inductive Malformation where
  | bodyTooShort
  | unterminatedString
  | stringNotUtf8
  | unknownFormat
  | lengthTooSmall
  deriving DecidableEq, Repr

def Malformation.message : Malformation → String
  | .bodyTooShort => "message body too short"
  | .unterminatedString => "string is not nul terminated"
  | .stringNotUtf8 => "string is not utf8"
  | .unknownFormat => "unknown format code"
  | .lengthTooSmall => "message length less than 4"

inductive Phase where
  | close
  | parse
  | describe
  | bind
  | execute
  | sync
  deriving DecidableEq, Repr

def Phase.name : Phase → String
  | .close => "close"
  | .parse => "parse"
  | .describe => "describe"
  | .bind => "bind"
  | .execute => "execute"
  | .sync => "sync"

inductive ProtocolError where
  | unexpected (expected : Option BackendKind) (found : UInt8) (phase : Option Phase)
  | malformed (reason : Malformation)
  deriving DecidableEq, Repr

namespace ProtocolError

def message : ProtocolError → String
  | .unexpected expected found phase =>
    let found := BackendKind.nameOf found
    (match expected with
      | some kind => "Expected message \x60" ++ kind.name ++ "\x60 found \x60" ++ found ++ "\x60"
      | none => "Unexpected message \x60" ++ found ++ "\x60") ++
    (match phase with
      | some phase => " in \x60" ++ phase.name ++ "\x60"
      | none => "")
  | .malformed reason => "Malformed message: " ++ reason.message

end ProtocolError

abbrev Reader (α : Type) := Bytes → Except ProtocolError (α × Bytes)

namespace Reader

def bytes (count : Nat) : Reader Bytes := fun body =>
  let taken := body.take count
  if taken.length = count then .ok (taken, body.drop count)
  else .error (.malformed .bodyTooShort)

def uint16 : Reader UInt16 := fun body => do
  let (taken, rest) ← bytes 2 body
  return (Bytes.toUInt16 taken, rest)

def uint32 : Reader UInt32 := fun body => do
  let (taken, rest) ← bytes 4 body
  return (Bytes.toUInt32 taken, rest)

def untilZero : Reader Bytes := fun body =>
  match body.dropWhile (· != 0) with
  | [] => .error (.malformed .unterminatedString)
  | _ :: rest => .ok (body.takeWhile (· != 0), rest)

def string : Reader String := fun body => do
  let (taken, rest) ← untilZero body
  match Bytes.toString? taken with
  | some s => return (s, rest)
  | none => .error (.malformed .stringNotUtf8)

def format : Reader Format := fun body => do
  let (code, rest) ← uint16 body
  match Format.ofCode? code.toInt16.toInt with
  | some format => return (format, rest)
  | none => .error (.malformed .unknownFormat)

def field : Reader Field := fun body => do
  let (name, body) ← string body
  let (table, body) ← uint32 body
  let (column, body) ← uint16 body
  let (oid, body) ← uint32 body
  let (size, body) ← uint16 body
  let (modifier, body) ← uint32 body
  let (format, body) ← format body
  return (⟨name, table, column.toInt16, oid, size.toInt16, modifier.toInt32, format⟩, body)

def repeatedAfter {α : Type} (item : Reader α) : (done : List α) → (count : Nat) → Reader (List α)
  | done, 0, body => .ok (done.reverse, body)
  | done, count + 1, body =>
    match item body with
    | .error e => .error e
    | .ok (a, rest) => repeatedAfter item (a :: done) count rest

def repeated {α : Type} (item : Reader α) (count : Nat) : Reader (List α) :=
  repeatedAfter item [] count

end Reader

def decodeOids (count : UInt16) (body : Bytes) : Except ProtocolError (List Oid) :=
  (Reader.repeated Reader.uint32 count.toNat body).map (·.1)

def decodeFields (count : UInt16) (body : Bytes) : Except ProtocolError (List Field) :=
  (Reader.repeated Reader.field count.toNat body).map (·.1)

/-! ## Reports

The body of an error or a notice is a list of fields, each a code, a text and a zero byte, and a zero
byte at the end. -/

structure Report where
  body : Bytes
  deriving DecidableEq, Repr

namespace Report

/-- The text of the first field with the code. A text that is not UTF-8 is not there, and neither is
anything after a text without an end. -/
def fieldIn (code : UInt8) (body : Bytes) : Option String :=
  match body with
  | [] => none
  | found :: rest =>
    if found = 0 then none
    else
      match _ended : rest.dropWhile (· != 0) with
      | [] => none
      | _ :: later =>
        if found = code then Bytes.toString? (rest.takeWhile (· != 0)) else fieldIn code later
termination_by body.length
decreasing_by
  have := (List.dropWhile_suffix (l := rest) (· != 0)).length_le
  rw [_ended] at this
  simp only [List.length_cons] at this ⊢
  omega

def field (report : Report) (code : UInt8) : Option String := fieldIn code report.body

def severity (report : Report) : String :=
  ((report.field 0x56).orElse fun _ => report.field 0x53).getD "ERROR"

def code (report : Report) : String := (report.field 0x43).getD ""

def message (report : Report) : String := (report.field 0x4D).getD ""

def text (report : Report) : String :=
  report.severity ++ ": " ++ report.message ++
    (match report.field 0x44 with
      | some detail => ", " ++ detail
      | none => "") ++
    (if report.code.isEmpty then "" else " (" ++ report.code ++ ")")

end Report

/-- Rows that a command has affected, by the tag that reports its completion. The tag of an insert names
an object before them, and other commands than these report none. -/
def rowsAffected (tag : String) : Nat :=
  match Text.words tag.toList with
  | command :: rows :: later =>
    if command = "INSERT".toList then ((later.head?.bind Decimal.readCount?).getD 0)
    else if ["SELECT", "UPDATE", "DELETE", "MERGE", "FETCH", "MOVE", "COPY"].any
        (·.toList = command) then
      (Decimal.readCount? rows).getD 0
    else 0
  | _ => 0

inductive BackendMessage where
  | bindComplete
  | closeComplete
  | commandComplete (tag : String)
  | dataRow (columns : UInt16) (body : Bytes)
  | errorResponse (report : Report)
  | emptyQueryResponse
  | noData
  | noticeResponse (report : Report)
  | parameterDescription (count : UInt16) (body : Bytes)
  | parameterStatus (name value : String)
  | parseComplete
  | portalSuspended
  | readyForQuery
  | rowDescription (count : UInt16) (body : Bytes)
  deriving DecidableEq, Repr

namespace BackendMessage

def kind : BackendMessage → BackendKind
  | .bindComplete => .bindComplete
  | .closeComplete => .closeComplete
  | .commandComplete _ => .commandComplete
  | .dataRow _ _ => .dataRow
  | .errorResponse _ => .errorResponse
  | .emptyQueryResponse => .emptyQueryResponse
  | .noData => .noData
  | .noticeResponse _ => .noticeResponse
  | .parameterDescription _ _ => .parameterDescription
  | .parameterStatus _ _ => .parameterStatus
  | .parseComplete => .parseComplete
  | .portalSuspended => .portalSuspended
  | .readyForQuery => .readyForQuery
  | .rowDescription _ _ => .rowDescription

def ofBody (kind : BackendKind) (body : Bytes) : Except ProtocolError BackendMessage :=
  match kind with
  | .bindComplete => .ok .bindComplete
  | .closeComplete => .ok .closeComplete
  | .commandComplete => do
    let (tag, _) ← Reader.string body
    return .commandComplete tag
  | .dataRow => do
    let (columns, body) ← Reader.uint16 body
    return .dataRow columns body
  | .errorResponse => .ok (.errorResponse ⟨body⟩)
  | .emptyQueryResponse => .ok .emptyQueryResponse
  | .noData => .ok .noData
  | .noticeResponse => .ok (.noticeResponse ⟨body⟩)
  | .parameterDescription => do
    let (count, body) ← Reader.uint16 body
    return .parameterDescription count body
  | .parameterStatus => do
    let (name, body) ← Reader.string body
    let (value, _) ← Reader.string body
    return .parameterStatus name value
  | .parseComplete => .ok .parseComplete
  | .portalSuspended => .ok .portalSuspended
  | .readyForQuery => .ok .readyForQuery
  | .rowDescription => do
    let (count, body) ← Reader.uint16 body
    return .rowDescription count body

def decode (typeByte : UInt8) (body : Bytes) : Except ProtocolError BackendMessage :=
  match BackendKind.ofTypeByte? typeByte with
  | some kind => ofBody kind body
  | none => .error (.unexpected none typeByte none)

def decodeAs (expected : BackendKind) (typeByte : UInt8) (body : Bytes) :
    Except ProtocolError BackendMessage :=
  if expected.typeByte = typeByte then ofBody expected body
  else .error (.unexpected (some expected) typeByte none)

def unexpectedIn (message : BackendMessage) (phase : Phase) : ProtocolError :=
  .unexpected none message.kind.typeByte (some phase)

end BackendMessage

end ExtendedQuery.Wire
