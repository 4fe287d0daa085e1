import ExtendedQuery.Proofs.Wire.Reading

/-!
# Descriptions of results and of parameters

A description is a count and that many items, and what stands behind them is left aside. A decoder is exact
(`Reader.Exact`) if it gives the items of a description and no others, and calls every other body malformed. Main
statement: `BackendMessage.descriptions_exact`, the decoders of result fields and of parameter types are exact.
-/

namespace ExtendedQuery

open Wire

/-- A field as the server writes it, with signed numbers in two's complement. -/
def Field.written (f : Field) : Bytes :=
  Bytes.ofStringZero f.name ++ Bytes.ofUInt32 f.table ++ Bytes.ofUInt16 f.column.toUInt16 ++
    Bytes.ofUInt32 f.oid ++ Bytes.ofUInt16 f.size.toUInt16 ++ Bytes.ofUInt32 f.modifier.toUInt32 ++
    formatBytes f.format

namespace Wire

namespace Reader

variable {α β : Type}

def Malforms (result : Except ProtocolError α) : Prop :=
  ∀ e, result = .error e → ∃ reason, e = .malformed reason

theorem malforms_ok (a : α) : Malforms (.ok a) := by
  intro e refused
  cases refused

theorem malforms_error (reason : Malformation) : Malforms (.error (.malformed reason) : Except ProtocolError α) := by
  intro e refused
  cases refused
  exact ⟨reason, rfl⟩

theorem Malforms.bind {first : Except ProtocolError α} {next : α → Except ProtocolError β} (malforms : Malforms first)
    (later : ∀ a, Malforms (next a)) : Malforms (first >>= next) := by
  cases first with
  | error e =>
    intro e' refused
    cases refused
    exact malforms e rfl
  | ok a => exact later a

theorem Malforms.map {result : Except ProtocolError α} (malforms : Malforms result) (f : α → β) :
    Malforms (result.map f) := by
  cases result with
  | error e =>
    intro e' refused
    cases refused
    exact malforms e rfl
  | ok a => exact malforms_ok (f a)

theorem bytes_malforms (count : Nat) (body : Bytes) : Malforms (bytes count body) := by
  unfold bytes
  dsimp only
  split
  · exact malforms_ok _
  · exact malforms_error .bodyTooShort

theorem uint16_malforms (body : Bytes) : Malforms (uint16 body) :=
  (bytes_malforms 2 body).bind fun _ => malforms_ok _

theorem uint32_malforms (body : Bytes) : Malforms (uint32 body) :=
  (bytes_malforms 4 body).bind fun _ => malforms_ok _

theorem untilZero_malforms (body : Bytes) : Malforms (untilZero body) := by
  unfold untilZero
  split
  · exact malforms_error .unterminatedString
  · exact malforms_ok _

theorem string_malforms (body : Bytes) : Malforms (string body) := by
  apply (untilZero_malforms body).bind
  rintro ⟨taken, rest⟩
  dsimp only
  split
  · exact malforms_ok _
  · exact malforms_error .stringNotUtf8

theorem format_malforms (body : Bytes) : Malforms (format body) := by
  apply (uint16_malforms body).bind
  rintro ⟨code, rest⟩
  dsimp only
  split
  · exact malforms_ok _
  · exact malforms_error .unknownFormat

theorem field_malforms (body : Bytes) : Malforms (field body) := by
  apply (string_malforms body).bind
  rintro ⟨name, body⟩
  apply (uint32_malforms body).bind
  rintro ⟨table, body⟩
  apply (uint16_malforms body).bind
  rintro ⟨column, body⟩
  apply (uint32_malforms body).bind
  rintro ⟨oid, body⟩
  apply (uint16_malforms body).bind
  rintro ⟨size, body⟩
  apply (uint32_malforms body).bind
  rintro ⟨modifier, body⟩
  apply (format_malforms body).bind
  rintro ⟨format, body⟩
  exact malforms_ok _

theorem repeatedAfter_malforms {item : Reader α} (malforms : ∀ body, Malforms (item body)) (done : List α)
    (count : Nat) (body : Bytes) : Malforms (repeatedAfter item done count body) := by
  induction count generalizing done body with
  | zero => exact malforms_ok _
  | succ count ih =>
    unfold repeatedAfter
    split
    · rename_i e first
      intro e' refused
      cases refused
      exact malforms body e first
    · exact ih _ _

theorem reads_field : Reads field (fun f => Terminable f.name) Field.written := by
  intro body f rest
  simp only [field, bind_eq_ok, Prod.exists, reads_string _ _ _, reads_uint32 _ _ _, reads_uint16 _ _ _,
    reads_format _ _ _, true_and, pure, Except.pure, Except.ok.injEq, Prod.mk.injEq]
  constructor
  · rintro ⟨name, _, ⟨named, rfl⟩, table, _, rfl, column, _, rfl, oid, _, rfl, size, _, rfl, modifier, _, rfl, format, _,
      rfl, rfl, rfl⟩
    exact ⟨named, by simp [Field.written]⟩
  · rintro ⟨named, rfl⟩
    exact ⟨f.name, _, ⟨named, by simp only [Field.written, List.append_assoc]⟩, f.table, _, rfl,
      f.column.toUInt16, _, rfl, f.oid, _, rfl, f.size.toUInt16, _, rfl, f.modifier.toUInt32, _, rfl, f.format, rest,
      rfl, rfl, rfl⟩

def description (write : α → Bytes) (items : List α) : Bytes :=
  Bytes.ofUInt16 (UInt16.ofNat items.length) ++ items.flatMap write

structure Describes (valid : α → Prop) (write : α → Bytes) (body : Bytes) (items : List α) : Prop where
  few : items.length < UInt16.size
  valid : ∀ a ∈ items, valid a
  begins : description write items <+: body

/-- The decoder gives what a body describes, and refuses a body that describes nothing. -/
structure Exact (decode : Bytes → Except ProtocolError (List α)) (valid : α → Prop) (write : α → Bytes) : Prop where
  accepts : ∀ body items, decode body = .ok items ↔ Describes valid write body items
  unique : ∀ body items others, Describes valid write body items → Describes valid write body others → items = others
  refuses : ∀ body, (∃ reason, decode body = .error (.malformed reason)) ↔ ∀ items, ¬ Describes valid write body items
  written : ∀ items later, items.length < UInt16.size → (∀ a ∈ items, valid a) →
    decode (description write items ++ later) = .ok items
  truncated : ∀ items count, items.length < UInt16.size → (∀ a ∈ items, valid a) →
    count < (description write items).length →
    ∃ reason, decode ((description write items).take count) = .error (.malformed reason)

def described (item : Reader α) (body : Bytes) : Except ProtocolError (List α) := do
  let (count, rest) ← uint16 body
  (repeated item count.toNat rest).map (·.1)

theorem described_malforms {item : Reader α} (malforms : ∀ body, Malforms (item body)) (body : Bytes) :
    Malforms (described item body) := by
  apply (uint16_malforms body).bind
  rintro ⟨count, rest⟩
  exact (repeatedAfter_malforms malforms [] count.toNat rest).map _

theorem described_eq (item : Reader α) (body : Bytes) :
    described item body = (counted item body).map fun read => read.1.2 := by
  unfold described counted
  cases uint16 body with
  | error e => rfl
  | ok read =>
    change (repeated item read.1.toNat read.2).map _ = (repeated item read.1.toNat read.2 >>= _).map _
    cases repeated item read.1.toNat read.2 <;> rfl

theorem described_eq_ok {item : Reader α} {valid : α → Prop} {write : α → Bytes} (reads : Reads item valid write)
    {body : Bytes} {items : List α} : described item body = .ok items ↔ Describes valid write body items := by
  rw [described_eq]
  constructor
  · intro read
    cases result : counted item body with
    | error e =>
      rw [result] at read
      cases read
    | ok found =>
      obtain ⟨⟨count, all⟩, rest⟩ := found
      rw [result] at read
      cases read
      obtain ⟨⟨long, each⟩, rfl⟩ := (reads.counted _ _ _).1 result
      refine ⟨long ▸ count.toNat_lt, each, rest, ?_⟩
      rw [description, ← long, UInt16.ofNat_toNat]
  · rintro ⟨few, each, rest, rfl⟩
    have long : (UInt16.ofNat items.length).toNat = items.length := UInt16.toNat_ofNat_of_lt' few
    have read : counted item (description write items ++ rest) = .ok ((UInt16.ofNat items.length, items), rest) :=
      (reads.counted _ _ _).2 ⟨⟨long, each⟩, rfl⟩
    rw [read]
    rfl

theorem Reads.exact {item : Reader α} {valid : α → Prop} {write : α → Bytes} (reads : Reads item valid write)
    (malforms : ∀ body, Malforms (item body)) : Exact (described item) valid write := by
  have accepts (body : Bytes) (items : List α) : described item body = .ok items ↔ Describes valid write body items :=
    described_eq_ok reads
  have unique : ∀ body items others, Describes valid write body items → Describes valid write body others →
      items = others := by
    intro body items others first second
    have same := (accepts body items).2 first
    rw [(accepts body others).2 second] at same
    exact (Except.ok.inj same).symm
  have refuses : ∀ body, (∃ reason, described item body = .error (.malformed reason)) ↔
      ∀ items, ¬ Describes valid write body items := by
    intro body
    constructor
    · rintro ⟨reason, refused⟩ items describes
      rw [(accepts body items).2 describes] at refused
      cases refused
    · intro none
      cases result : described item body with
      | ok items => exact absurd ((accepts body items).1 result) (none items)
      | error e =>
        obtain ⟨reason, rfl⟩ := described_malforms malforms body e result
        exact ⟨reason, rfl⟩
  refine ⟨accepts, unique, refuses, ?_, ?_⟩
  · intro items later few each
    exact (accepts _ _).2 ⟨few, each, List.prefix_append _ _⟩
  · intro items count few each short
    rw [refuses]
    rintro others ⟨many, valids, begins⟩
    -- The part describes what the whole describes, so it would have to be as long.
    have whole : Describes valid write (description write items) others :=
      ⟨many, valids, begins.trans (List.take_prefix _ _)⟩
    obtain rfl := unique _ _ _ whole ⟨few, each, List.prefix_refl _⟩
    have long := begins.length_le
    rw [List.length_take] at long
    omega

end Reader

namespace BackendMessage

def fieldsOf (body : Bytes) : Except ProtocolError (List Field) := do
  match ← ofBody .rowDescription body with
  | .rowDescription count rest => decodeFields count rest
  | message => .error (message.unexpectedIn .describe)

def typesOf (body : Bytes) : Except ProtocolError (List Oid) := do
  match ← ofBody .parameterDescription body with
  | .parameterDescription count rest => decodeOids count rest
  | message => .error (message.unexpectedIn .describe)

theorem fieldsOf_eq (body : Bytes) : fieldsOf body = Reader.described Reader.field body := by
  unfold fieldsOf Reader.described ofBody
  cases Reader.uint16 body <;> rfl

theorem typesOf_eq (body : Bytes) : typesOf body = Reader.described Reader.uint32 body := by
  unfold typesOf Reader.described ofBody
  cases Reader.uint16 body <;> rfl

/-- What the server describes is decoded as it was written, and nothing else is decoded. -/
theorem descriptions_exact :
    Reader.Exact fieldsOf (fun f => Terminable f.name) Field.written ∧
      Reader.Exact typesOf (fun _ => True) Bytes.ofUInt32 := by
  rw [funext fieldsOf_eq, funext typesOf_eq]
  exact ⟨Reader.reads_field.exact Reader.field_malforms, Reader.reads_uint32.exact Reader.uint32_malforms⟩

end BackendMessage

end Wire

end ExtendedQuery
