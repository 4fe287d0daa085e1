import ExtendedQuery.Proofs.Text.Encoded
import ExtendedQuery.Proofs.Wire.Frames
import ExtendedQuery.Wire.Backend

/-!
# Messages as the server reads them

The readers below follow the grammar of the protocol and know nothing of how a message is written.
`Reader.Reads` compares a reader with a writer: it accepts what is written of valid values, and
nothing else. Each part of a message has such a statement, a message is assembled from its parts
(`FrontendMessage.read?_eq_some_iff`), and a buffer is the concatenation of its frames
(`FrontendMessage.readAll?_eq_some_iff`). Main statement: `FrontendMessage.written_reads_back`.
-/

namespace ExtendedQuery

open Wire

/-! ## Numbers and text -/

namespace Bytes

theorem bigEndian_value (bytes : Bytes) : bigEndian bytes.length (value bytes) = bytes := by
  induction bytes using List.reverseRecOn with
  | nil => rfl
  | append_singleton bytes b ih =>
    have low : b.toNat < 256 := b.toNat_lt
    rw [List.length_append, List.length_singleton, value_concat, bigEndian]
    rw [show (256 * value bytes + b.toNat) / 256 = value bytes by omega, ih,
      show (256 * value bytes + b.toNat) % 256 = b.toNat by omega, UInt8.ofNat_toNat]

theorem value_lt (bytes : Bytes) : value bytes < 256 ^ bytes.length := by
  rw [← bigEndian_value bytes, value_bigEndian, length_bigEndian]
  exact Nat.mod_lt _ (Nat.pow_pos (by decide))

theorem ofUInt16_toUInt16 {bytes : Bytes} (two : bytes.length = 2) : ofUInt16 (toUInt16 bytes) = bytes := by
  have below := value_lt bytes
  rw [two] at below
  rw [ofUInt16, toUInt16, UInt16.toNat_ofNat_of_lt' below, ← two, bigEndian_value]

theorem ofUInt32_toUInt32 {bytes : Bytes} (four : bytes.length = 4) :
    ofUInt32 (toUInt32 bytes) = bytes := by
  have below := value_lt bytes
  rw [four] at below
  rw [ofUInt32, toUInt32, UInt32.toNat_ofNat_of_lt' below, ← four, bigEndian_value]

theorem toString?_eq_some_iff {bytes : Bytes} {s : String} : toString? bytes = some s ↔ bytes = ofString s := by
  rw [toString?, String.fromUTF8?]
  constructor
  · intro found
    split at found
    · cases found
      rfl
    · cases found
  · rintro rfl
    rw [dif_pos (show ByteArray.IsValidUTF8 ⟨(ofString s).toArray⟩ from s.isValidUTF8)]
    rfl

theorem zero_mem_ofString (s : String) : (0 : UInt8) ∈ ofString s ↔ '\x00' ∈ s.toList := by
  have encoded := @Text.mem_utf8 '\x00' (by decide) s.toList
  rwa [Text.utf8, String.ofList_toList] at encoded

end Bytes

namespace Wire

namespace Reader

variable {α β : Type}

/-! ## The grammar -/

/-- A length and that many bytes. The length minus one stands for a value that is NULL. -/
def value : Reader (Option Bytes) := fun body => do
  let (length, body) ← uint32 body
  if length = 0xFFFFFFFF then return (none, body)
  if 0x80000000 ≤ length.toNat then .error (.malformed .lengthTooSmall)
  else
    let (taken, body) ← bytes length.toNat body
    return (some taken, body)

def counted (item : Reader α) : Reader (UInt16 × List α) := fun body => do
  let (count, body) ← uint16 body
  let (items, body) ← repeated item count.toNat body
  return ((count, items), body)

def parseBody : Reader Parse := fun body => do
  let (name, body) ← string body
  let (sql, body) ← string body
  let ((count, types), body) ← counted uint32 body
  return (⟨name, sql, count, types⟩, body)

def bindBody : Reader Bind := fun body => do
  let (portal, body) ← string body
  let (statement, body) ← string body
  let ((formatCount, formats), body) ← counted format body
  let ((valueCount, values), body) ← counted value body
  let ((resultCount, results), body) ← counted format body
  return (⟨portal, statement, formatCount, formats, valueCount, sizeOfValues values, values,
    resultCount, results⟩, body)

def executeBody : Reader (String × UInt32) := fun body => do
  let (portal, body) ← string body
  let (maxRows, body) ← uint32 body
  return ((portal, maxRows), body)

def targetBody : Reader (UInt8 × String)
  | [] => .error (.malformed .bodyTooShort)
  | target :: body => do
    let (name, body) ← string body
    return ((target, name), body)

def map (reader : Reader α) (f : α → β) : Reader β := fun body =>
  (reader body).map fun (a, rest) => (f a, rest)

def messageBody : (typeByte : UInt8) → Reader FrontendMessage
  | 0x50 => parseBody.map .parse
  | 0x42 => bindBody.map .bind
  | 0x45 => executeBody.map fun m => .execute m.1 m.2
  | 0x44 => targetBody.map fun m => .describe m.1 m.2
  | 0x43 => targetBody.map fun m => .close m.1 m.2
  | 0x53 => fun body => .ok (.sync, body)
  | typeByte => fun _ => .error (.unexpected none typeByte none)

/-- What stands behind the type of a message: a length that counts itself, and the body. -/
def sized : Reader Bytes := fun body => do
  let (length, body) ← uint32 body
  if length.toNat < 4 then .error (.malformed .lengthTooSmall)
  else bytes (length.toNat - 4) body

end Reader

namespace FrontendMessage

def ofBody? (typeByte : UInt8) (body : Bytes) : Option FrontendMessage :=
  match Reader.messageBody typeByte body with
  | .ok (message, []) => some message
  | _ => none

def read? : Bytes → Option (FrontendMessage × Bytes)
  | [] => none
  | typeByte :: bytes =>
    match Reader.sized bytes with
    | .ok (body, rest) => (ofBody? typeByte body).map (·, rest)
    | .error _ => none

end FrontendMessage

/-! ## What can be read again -/

def Terminable (s : String) : Prop := '\x00' ∉ s.toList

instance (s : String) : Decidable (Terminable s) := inferInstanceAs (Decidable (¬ _))

structure Parse.WellFormed (m : Parse) : Prop where
  name : Terminable m.name
  sql : Terminable m.sql
  types : m.typeCount.toNat = m.types.length

structure Bind.WellFormed (m : Bind) : Prop where
  portal : Terminable m.portal
  statement : Terminable m.statement
  formats : m.formatCount.toNat = m.formats.length
  values : m.valueCount.toNat = m.values.length
  size : m.valuesSize = sizeOfValues m.values
  short : ∀ value ∈ m.values, ∀ bytes ∈ value, bytes.length < 0x80000000
  results : m.resultFormatCount.toNat = m.resultFormats.length

def FrontendMessage.WellFormed : FrontendMessage → Prop
  | .parse m => m.WellFormed
  | .bind m => m.WellFormed
  | .execute portal _ => Terminable portal
  | .describe _ name => Terminable name
  | .close _ name => Terminable name
  | .sync => True

theorem FrontendMessage.WellFormed.counted {message : FrontendMessage} (good : message.WellFormed) :
    message.Counted := by
  cases message with
  | parse m => exact good.types
  | bind m => exact ⟨good.formats, good.size, good.results⟩
  | execute portal maxRows => trivial
  | describe target name => trivial
  | close target name => trivial
  | sync => trivial

/-! ## Readers against writers -/

namespace Reader

variable {α β : Type}

/-- The reader accepts what is written of a valid value, and leaves what stands behind it. -/
def Reads (reader : Reader α) (valid : α → Prop) (write : α → Bytes) : Prop :=
  ∀ body a rest, reader body = .ok (a, rest) ↔ valid a ∧ body = write a ++ rest

theorem bind_eq_ok {ε : Type} {first : Except ε α} {next : α → Except ε β} {b : β} :
    (first >>= next) = .ok b ↔ ∃ a, first = .ok a ∧ next a = .ok b := by
  cases first with
  | error e => simp [bind, Except.bind]
  | ok a => simp [bind, Except.bind]

theorem bytes_eq_ok {count : Nat} {body taken rest : Bytes} :
    bytes count body = .ok (taken, rest) ↔ taken.length = count ∧ body = taken ++ rest := by
  unfold bytes
  dsimp only
  constructor
  · intro read
    split at read
    · cases read
      exact ⟨‹_›, (List.take_append_drop count body).symm⟩
    · cases read
  · rintro ⟨rfl, rfl⟩
    simp

theorem reads_fixed {count : Nat} {ofBytes : Bytes → α} {write : α → Bytes} (length : ∀ a, (write a).length = count)
    (written : ∀ {taken : Bytes}, taken.length = count → write (ofBytes taken) = taken)
    (read : ∀ a, ofBytes (write a) = a) :
    Reads (fun body => do let (taken, rest) ← bytes count body; return (ofBytes taken, rest)) (fun _ => True) write := by
  intro body a rest
  simp only [bind_eq_ok, Prod.exists, bytes_eq_ok, pure, Except.pure, Except.ok.injEq, Prod.mk.injEq, true_and]
  constructor
  · rintro ⟨taken, _, ⟨whole, rfl⟩, rfl, rfl⟩
    rw [written whole]
  · rintro rfl
    exact ⟨write a, rest, ⟨length a, rfl⟩, read a, rfl⟩

theorem reads_uint16 : Reads uint16 (fun _ => True) Bytes.ofUInt16 :=
  reads_fixed (fun n => Bytes.length_bigEndian 2 n.toNat) Bytes.ofUInt16_toUInt16 Bytes.toUInt16_ofUInt16

theorem reads_uint32 : Reads uint32 (fun _ => True) Bytes.ofUInt32 :=
  reads_fixed (fun n => Bytes.length_bigEndian 4 n.toNat) Bytes.ofUInt32_toUInt32 Bytes.toUInt32_ofUInt32

theorem untilZero_eq_ok {body taken rest : Bytes} :
    untilZero body = .ok (taken, rest) ↔ 0 ∉ taken ∧ body = taken ++ 0 :: rest := by
  have nonzero (bytes : Bytes) : 0 ∉ bytes ↔ ∀ b ∈ bytes, (b != 0) = true := by
    simp only [bne_iff_ne, ne_eq]
    exact ⟨fun absent b member zero => absent (zero ▸ member), fun all member => all 0 member rfl⟩
  unfold untilZero
  constructor
  · intro read
    split at read
    · cases read
    · rename_i b later stopped
      cases read
      have zero : b = 0 := by
        have head := List.head_dropWhile_not (p := (· != 0)) (l := body) (by simp [stopped])
        simpa [stopped] using head
      constructor
      · rw [nonzero]
        intro b member
        exact List.all_eq_true.1 List.all_takeWhile b member
      · nth_rewrite 2 [← zero]
        rw [← stopped, List.takeWhile_append_dropWhile]
  · rintro ⟨absent, rfl⟩
    rw [nonzero] at absent
    rw [List.dropWhile_append_of_pos absent, List.takeWhile_append_of_pos absent]
    simp

theorem reads_string : Reads string Terminable Bytes.ofStringZero := by
  intro body s rest
  simp only [string, bind_eq_ok, Prod.exists, untilZero_eq_ok]
  constructor
  · rintro ⟨taken, later, ⟨absent, rfl⟩, read⟩
    split at read
    · cases read
      rename_i found
      rw [Bytes.toString?_eq_some_iff] at found
      subst found
      exact ⟨fun member => absent ((Bytes.zero_mem_ofString _).2 member), by simp [Bytes.ofStringZero]⟩
    · cases read
  · rintro ⟨absent, rfl⟩
    exact ⟨Bytes.ofString s, rest,
      ⟨fun member => absent ((Bytes.zero_mem_ofString s).1 member), by simp [Bytes.ofStringZero]⟩,
      by rw [Bytes.toString?_eq_some_iff.2 rfl]; rfl⟩

theorem ofCode?_eq_some_iff {code : UInt16} {f : Format} :
    Format.ofCode? code.toInt16.toInt = some f ↔ code = f.code := by
  have same {n : UInt16} (h : code.toInt16.toInt = n.toInt16.toInt) : code = n :=
    congrArg Int16.toUInt16 (Int16.toInt_inj.1 h)
  constructor
  · intro found
    unfold Format.ofCode? at found
    split_ifs at found with zero one
    · cases found
      exact same (n := 0) zero
    · cases found
      exact same (n := 1) one
  · rintro rfl
    cases f <;> rfl

theorem reads_format : Reads format (fun _ => True) formatBytes := by
  intro body f rest
  simp only [format, bind_eq_ok, Prod.exists, reads_uint16 _ _ _, true_and]
  constructor
  · rintro ⟨code, later, rfl, read⟩
    split at read
    · rename_i found
      cases read
      rw [ofCode?_eq_some_iff.1 found, formatBytes]
    · cases read
  · rintro rfl
    exact ⟨f.code, rest, rfl, by rw [ofCode?_eq_some_iff.2 rfl]; rfl⟩

theorem reads_value : Reads value (fun v => ∀ bytes ∈ v, bytes.length < 0x80000000) valueBytes := by
  intro body v rest
  simp only [value, bind_eq_ok, Prod.exists, reads_uint32 _ _ _, true_and]
  constructor
  · rintro ⟨length, later, rfl, read⟩
    split_ifs at read with null long
    · cases read
      rw [null]
      exact ⟨nofun, rfl⟩
    · rw [bind_eq_ok] at read
      obtain ⟨⟨taken, left⟩, cut, read⟩ := read
      cases read
      obtain ⟨same, rfl⟩ := bytes_eq_ok.1 cut
      constructor
      · intro bytes member
        cases member
        rw [same]
        exact Nat.lt_of_not_le long
      · rw [valueBytes, same, Bytes.ofUInt32, List.append_assoc]
  · rintro ⟨short, rfl⟩
    cases v with
    | none => exact ⟨0xFFFFFFFF, rest, rfl, rfl⟩
    | some taken =>
      have short : taken.length < 0x80000000 := short taken rfl
      have length : (UInt32.ofNat taken.length).toNat = taken.length :=
        UInt32.toNat_ofNat_of_lt' (Nat.lt_trans short (by decide))
      have present : UInt32.ofNat taken.length ≠ 0xFFFFFFFF := by
        intro null
        rw [null] at length
        change 4294967295 = taken.length at length
        omega
      have cut : bytes taken.length (taken ++ rest) = .ok (taken, rest) := bytes_eq_ok.2 ⟨rfl, rfl⟩
      exists UInt32.ofNat taken.length, taken ++ rest
      rw [if_neg present, length, if_neg (Nat.not_le_of_lt short), cut]
      exact ⟨by rw [valueBytes, Bytes.ofUInt32, length, List.append_assoc], rfl⟩

theorem repeatedAfter_eq_ok {item : Reader α} {valid : α → Prop} {write : α → Bytes}
    (reads : Reads item valid write) {done : List α} {count : Nat} {body rest : Bytes} {all : List α} :
    repeatedAfter item done count body = .ok (all, rest) ↔ ∃ items : List α, all = done.reverse ++ items ∧
      items.length = count ∧ (∀ a ∈ items, valid a) ∧ body = items.flatMap write ++ rest := by
  induction count generalizing done body with
  | zero =>
    simp only [repeatedAfter, Except.ok.injEq, Prod.mk.injEq, List.length_eq_zero_iff]
    constructor
    · rintro ⟨rfl, rfl⟩
      exact ⟨[], by simp⟩
    · rintro ⟨_, rfl, rfl, -, rfl⟩
      simp
  | succ count ih =>
    unfold repeatedAfter
    constructor
    · intro read
      split at read
      · cases read
      · rename_i a later first
        obtain ⟨good, rfl⟩ := (reads _ _ _).1 first
        obtain ⟨items, rfl, rfl, each, rfl⟩ := ih.1 read
        exact ⟨a :: items, by simp, rfl, by simp_all, by simp⟩
    · rintro ⟨items, rfl, long, each, rfl⟩
      obtain ⟨a, items, rfl⟩ := List.exists_of_length_succ items long
      rw [List.flatMap_cons, List.append_assoc,
        (reads _ a _).2 ⟨each a List.mem_cons_self, rfl⟩]
      exact ih.2 ⟨items, by simp, Nat.succ.inj long, fun b member => each b (List.mem_cons_of_mem a member), rfl⟩

theorem Reads.counted {item : Reader α} {valid : α → Prop} {write : α → Bytes} (reads : Reads item valid write) :
    Reads (counted item) (fun (count, items) => count.toNat = items.length ∧ ∀ a ∈ items, valid a)
      fun (count, items) => Bytes.ofUInt16 count ++ items.flatMap write := by
  rintro body ⟨count, items⟩ rest
  simp only [Reader.counted, bind_eq_ok, Prod.exists, reads_uint16 _ _ _, true_and, repeated,
    repeatedAfter_eq_ok reads, List.reverse_nil, List.nil_append, pure, Except.pure, Except.ok.injEq,
    Prod.mk.injEq]
  constructor
  · rintro ⟨count, _, rfl, _, _, ⟨items, rfl, long, each, rfl⟩, ⟨rfl, rfl⟩, rfl⟩
    exact ⟨⟨long.symm, each⟩, (List.append_assoc _ _ _).symm⟩
  · rintro ⟨⟨long, each⟩, rfl⟩
    exact ⟨count, _, List.append_assoc _ _ _, items, rest, ⟨items, rfl, long.symm, each, rfl⟩, ⟨rfl, rfl⟩, rfl⟩

theorem Reads.map {reader : Reader α} {valid : α → Prop} {write : α → Bytes} (reads : Reads reader valid write)
    (f : α → β) {body rest : Bytes} {b : β} :
    reader.map f body = .ok (b, rest) ↔ ∃ a, f a = b ∧ valid a ∧ body = write a ++ rest := by
  unfold Reader.map
  constructor
  · intro read
    cases result : reader body with
    | error e =>
      rw [result] at read
      cases read
    | ok found =>
      rw [result] at read
      cases read
      exact ⟨found.1, rfl, (reads _ _ _).1 result⟩
  · rintro ⟨a, rfl, written⟩
    rw [(reads _ _ _).2 written]
    rfl

/-! ## Bodies -/

theorem reads_parseBody : Reads parseBody Parse.WellFormed fun m => (FrontendMessage.parse m).body := by
  intro body m rest
  simp only [parseBody, bind_eq_ok, Prod.exists, reads_string _ _ _, reads_uint32.counted _ _ _, pure,
    Except.pure, Except.ok.injEq, Prod.mk.injEq]
  constructor
  · rintro ⟨name, _, ⟨named, rfl⟩, sql, _, ⟨texted, rfl⟩, count, types, _, ⟨⟨long, -⟩, rfl⟩, rfl, rfl⟩
    exact ⟨⟨named, texted, long⟩, by simp [FrontendMessage.body]⟩
  · rintro ⟨good, rfl⟩
    exact ⟨m.name, _, ⟨good.name, by simp only [FrontendMessage.body, List.append_assoc]; rfl⟩, m.sql, _,
      ⟨good.sql, rfl⟩, m.typeCount, m.types, rest, ⟨⟨good.types, fun _ _ => trivial⟩, by simp⟩, rfl, rfl⟩

theorem reads_bindBody : Reads bindBody Bind.WellFormed fun m => (FrontendMessage.bind m).body := by
  intro body m rest
  simp only [bindBody, bind_eq_ok, Prod.exists, reads_string _ _ _, reads_format.counted _ _ _,
    reads_value.counted _ _ _, pure, Except.pure, Except.ok.injEq, Prod.mk.injEq]
  constructor
  · rintro ⟨portal, _, ⟨ported, rfl⟩, statement, _, ⟨stated, rfl⟩, formatCount, formats, _, ⟨⟨formatted, -⟩, rfl⟩,
      valueCount, values, _, ⟨⟨valued, short⟩, rfl⟩, resultCount, results, _, ⟨⟨resulted, -⟩, rfl⟩, rfl, rfl⟩
    exact ⟨⟨ported, stated, formatted, valued, rfl, short, resulted⟩, by simp [FrontendMessage.body]⟩
  · rintro ⟨good, rfl⟩
    exact ⟨m.portal, _, ⟨good.portal, by simp only [FrontendMessage.body, List.append_assoc]; rfl⟩, m.statement, _,
      ⟨good.statement, rfl⟩, m.formatCount, m.formats, _, ⟨⟨good.formats, fun _ _ => trivial⟩, by simp; rfl⟩,
      m.valueCount, m.values, _, ⟨⟨good.values, good.short⟩, by simp; rfl⟩, m.resultFormatCount, m.resultFormats,
      rest, ⟨⟨good.results, fun _ _ => trivial⟩, by simp⟩, by rw [← good.size], rfl⟩

theorem reads_executeBody : Reads executeBody (fun m => Terminable m.1)
    fun m => (FrontendMessage.execute m.1 m.2).body := by
  rintro body ⟨portal, maxRows⟩ rest
  simp only [executeBody, bind_eq_ok, Prod.exists, reads_string _ _ _, reads_uint32 _ _ _, true_and, pure,
    Except.pure, Except.ok.injEq, Prod.mk.injEq]
  constructor
  · rintro ⟨portal, _, ⟨ends, rfl⟩, maxRows, _, rfl, ⟨rfl, rfl⟩, rfl⟩
    exact ⟨ends, by simp [FrontendMessage.body]⟩
  · rintro ⟨ends, rfl⟩
    exact ⟨portal, _, ⟨ends, List.append_assoc _ _ _⟩, maxRows, rest, rfl, ⟨rfl, rfl⟩, rfl⟩

theorem reads_targetBody : Reads targetBody (fun m => Terminable m.2)
    fun m => m.1 :: Bytes.ofStringZero m.2 := by
  rintro body ⟨target, name⟩ rest
  cases body with
  | nil => simp [targetBody]
  | cons b body =>
    simp only [targetBody, bind_eq_ok, Prod.exists, reads_string _ _ _, pure, Except.pure, Except.ok.injEq,
      Prod.mk.injEq, List.cons_append, List.cons.injEq]
    constructor
    · rintro ⟨name, _, ⟨ends, rfl⟩, ⟨rfl, rfl⟩, rfl⟩
      exact ⟨ends, rfl, rfl⟩
    · rintro ⟨ends, rfl, rfl⟩
      exact ⟨name, rest, ⟨ends, rfl⟩, ⟨rfl, rfl⟩, rfl⟩

theorem messageBody_eq_ok {typeByte : UInt8} {body rest : Bytes} {message : FrontendMessage} :
    messageBody typeByte body = .ok (message, rest) ↔
      typeByte = message.typeByte ∧ message.WellFormed ∧ body = message.body ++ rest := by
  constructor
  · intro read
    unfold messageBody at read
    split at read
    · obtain ⟨m, rfl, written⟩ := (reads_parseBody.map _).1 read
      exact ⟨rfl, written⟩
    · obtain ⟨m, rfl, written⟩ := (reads_bindBody.map _).1 read
      exact ⟨rfl, written⟩
    · obtain ⟨⟨portal, maxRows⟩, rfl, written⟩ := (reads_executeBody.map _).1 read
      exact ⟨rfl, written⟩
    · obtain ⟨⟨target, name⟩, rfl, written⟩ := (reads_targetBody.map _).1 read
      exact ⟨rfl, written⟩
    · obtain ⟨⟨target, name⟩, rfl, written⟩ := (reads_targetBody.map _).1 read
      exact ⟨rfl, written⟩
    · cases read
      exact ⟨rfl, trivial, rfl⟩
    · cases read
  · rintro ⟨rfl, good, rfl⟩
    cases message with
    | parse m => exact (reads_parseBody.map _).2 ⟨m, rfl, good, rfl⟩
    | bind m => exact (reads_bindBody.map _).2 ⟨m, rfl, good, rfl⟩
    | execute portal maxRows =>
      exact (reads_executeBody.map fun m => FrontendMessage.execute m.1 m.2).2 ⟨(portal, maxRows), rfl, good, rfl⟩
    | describe target name =>
      exact (reads_targetBody.map fun m => FrontendMessage.describe m.1 m.2).2 ⟨(target, name), rfl, good, rfl⟩
    | close target name =>
      exact (reads_targetBody.map fun m => FrontendMessage.close m.1 m.2).2 ⟨(target, name), rfl, good, rfl⟩
    | sync => rfl

theorem reads_sized : Reads sized (fun body => 4 + body.length < UInt32.size)
    fun body => Bytes.bigEndian 4 (4 + body.length) ++ body := by
  intro bytes body rest
  simp only [sized, bind_eq_ok, Prod.exists, reads_uint32 _ _ _, true_and]
  constructor
  · rintro ⟨length, later, rfl, read⟩
    split_ifs at read with small
    obtain ⟨same, rfl⟩ := bytes_eq_ok.1 read
    have whole : 4 + body.length = length.toNat := by omega
    rw [whole, Bytes.ofUInt32, List.append_assoc]
    exact ⟨length.toNat_lt, rfl⟩
  · rintro ⟨fits, rfl⟩
    have length : (UInt32.ofNat (4 + body.length)).toNat = 4 + body.length := UInt32.toNat_ofNat_of_lt' fits
    exists UInt32.ofNat (4 + body.length), body ++ rest
    rw [length, if_neg (by omega), bytes_eq_ok]
    exact ⟨by rw [Bytes.ofUInt32, length, List.append_assoc], by omega, rfl⟩

end Reader

namespace FrontendMessage

/-! ## Frames -/

def frame (message : FrontendMessage) : Bytes :=
  message.typeByte :: Bytes.bigEndian 4 (4 + message.body.length) ++ message.body

abbrev Sized (message : FrontendMessage) : Prop := 4 + message.body.length < UInt32.size

theorem Counted.frame?_eq {message : FrontendMessage} (counted : message.Counted) :
    message.frame? = if message.Sized then some message.frame else none := by
  have length := length_body counted
  unfold frame? frame
  dsimp only
  rw [← length]
  simp

theorem ofBody?_eq_some_iff {typeByte : UInt8} {body : Bytes} {message : FrontendMessage} :
    ofBody? typeByte body = some message ↔
      typeByte = message.typeByte ∧ message.WellFormed ∧ body = message.body := by
  have whole := @Reader.messageBody_eq_ok typeByte body [] message
  rw [List.append_nil] at whole
  rw [← whole, ofBody?]
  constructor
  · intro found
    split at found
    · rename_i read
      cases found
      exact read
    · cases found
  · intro read
    rw [read]

theorem read?_eq_some_iff {bytes rest : Bytes} {message : FrontendMessage} :
    read? bytes = some (message, rest) ↔
      message.WellFormed ∧ message.Sized ∧ bytes = message.frame ++ rest := by
  cases bytes with
  | nil => simp [read?, frame]
  | cons typeByte bytes =>
    rw [read?]
    constructor
    · intro found
      split at found
      · rename_i body later cut
        obtain ⟨m, read, same⟩ := Option.map_eq_some_iff.1 found
        cases same
        obtain ⟨rfl, good, rfl⟩ := ofBody?_eq_some_iff.1 read
        obtain ⟨sized, rfl⟩ := (Reader.reads_sized _ _ _).1 cut
        exact ⟨good, sized, rfl⟩
      · cases found
    · rintro ⟨good, sized, same⟩
      obtain ⟨kind, rest⟩ := List.cons.inj same
      rw [kind, (Reader.reads_sized _ message.body _).2 ⟨sized, rest⟩]
      dsimp only
      rw [ofBody?_eq_some_iff.2 ⟨rfl, good, rfl⟩]
      rfl

theorem read?_frame_iff {message : FrontendMessage} (sized : message.Sized) (rest : Bytes) :
    read? (message.frame ++ rest) = some (message, rest) ↔ message.WellFormed := by
  rw [read?_eq_some_iff]
  exact ⟨fun read => read.1, fun good => ⟨good, sized, rfl⟩⟩

/-! ## Buffers -/

theorem length_of_read? {bytes rest : Bytes} {message : FrontendMessage}
    (read : read? bytes = some (message, rest)) : rest.length < bytes.length := by
  obtain ⟨-, -, rfl⟩ := read?_eq_some_iff.1 read
  rw [List.length_append, frame, List.cons_append, List.length_cons]
  omega

def readAll? (bytes : Bytes) : Option (List FrontendMessage) :=
  if bytes = [] then some []
  else
    match _read : read? bytes with
    | some (message, rest) => (readAll? rest).map (message :: ·)
    | none => none
termination_by bytes.length
decreasing_by exact length_of_read? _read

theorem readAll?_eq_some_iff {bytes : Bytes} {messages : List FrontendMessage} :
    readAll? bytes = some messages ↔
      (∀ message ∈ messages, message.WellFormed ∧ message.Sized) ∧ bytes = messages.flatMap frame := by
  induction messages generalizing bytes with
  | nil =>
    rw [readAll?]
    constructor
    · intro read
      split at read
      · rename_i empty
        exact ⟨nofun, empty⟩
      · split at read
        · obtain ⟨later, -, same⟩ := Option.map_eq_some_iff.1 read
          cases same
        · cases read
    · rintro ⟨-, rfl⟩
      rfl
  | cons message messages ih =>
    rw [readAll?, List.forall_mem_cons, List.flatMap_cons]
    constructor
    · intro read
      split at read
      · cases read
      · split at read
        · rename_i first later found
          obtain ⟨others, read, same⟩ := Option.map_eq_some_iff.1 read
          cases same
          obtain ⟨good, sized, rfl⟩ := read?_eq_some_iff.1 found
          obtain ⟨each, rfl⟩ := ih.1 read
          exact ⟨⟨⟨good, sized⟩, each⟩, rfl⟩
        · cases read
    · rintro ⟨⟨⟨good, sized⟩, each⟩, rfl⟩
      have found : read? (message.frame ++ messages.flatMap frame) = some (message, messages.flatMap frame) :=
        read?_eq_some_iff.2 ⟨good, sized, rfl⟩
      rw [if_neg (by simp [frame])]
      split
      · rename_i first later first_read
        rw [found] at first_read
        cases first_read
        rw [ih.2 ⟨each, rfl⟩]
        rfl
      · rename_i none_read
        rw [found] at none_read
        cases none_read

theorem writeAll?_eq {messages : List FrontendMessage}
    (good : ∀ message ∈ messages, message.Counted ∧ message.Sized) (buffer : Bytes) :
    writeAll? messages buffer = some (buffer ++ messages.flatMap frame) := by
  have frames : messages.mapM frame? = some (messages.map frame) := by
    induction messages with
    | nil => rfl
    | cons message messages ih =>
      obtain ⟨counted, sized⟩ := good message List.mem_cons_self
      rw [List.mapM_cons, counted.frame?_eq, if_pos sized, ih fun m member => good m (List.mem_cons_of_mem message member)]
      rfl
  rw [writeAll?, frames, List.flatMap]
  rfl

/-- A buffer is read as the messages that it was written from, and everything that is read can be written. -/
theorem written_reads_back (messages : List FrontendMessage)
    (good : ∀ message ∈ messages, message.WellFormed ∧ message.Sized) (buffer : Bytes) :
    writeAll? messages buffer = some (buffer ++ messages.flatMap frame) ∧
      readAll? (messages.flatMap frame) = some messages ∧
      ∀ bytes others, readAll? bytes = some others → writeAll? others [] = some bytes := by
  have counted {messages : List FrontendMessage} (good : ∀ message ∈ messages, message.WellFormed ∧ message.Sized) :
      ∀ message ∈ messages, message.Counted ∧ message.Sized :=
    fun message member => ⟨(good message member).1.counted, (good message member).2⟩
  constructor
  · exact writeAll?_eq (counted good) buffer
  constructor
  · exact readAll?_eq_some_iff.2 ⟨good, rfl⟩
  · intro bytes others read
    obtain ⟨each, rfl⟩ := readAll?_eq_some_iff.1 read
    exact writeAll?_eq (counted each) []

theorem null_and_empty_read_back :
    let messages : List FrontendMessage :=
      [.parse ⟨"q0", "SELECT $1, $2", 1, [25]⟩,
       .bind ⟨"", "q0", 2, [.text, .binary], 2, 8, [none, some []], 0, []⟩, .execute "" 0, .sync]
    writeAll? messages [1] = some ([1] ++ messages.flatMap frame) ∧
      readAll? (messages.flatMap frame) = some messages := by
  intro messages
  have good : ∀ message ∈ messages, message.WellFormed ∧ message.Sized := by
    intro message member
    simp only [messages, List.mem_cons, List.not_mem_nil, or_false] at member
    rcases member with rfl | rfl | rfl | rfl
    · exact ⟨⟨by decide, by decide, rfl⟩, by decide⟩
    · exact ⟨⟨by decide, by decide, rfl, rfl, rfl, by decide, rfl⟩, by decide⟩
    · exact ⟨show Terminable "" by decide, by decide⟩
    · exact ⟨trivial, by decide⟩
  have whole := written_reads_back messages good [1]
  exact ⟨whole.1, whole.2.1⟩

end FrontendMessage

end Wire

end ExtendedQuery
