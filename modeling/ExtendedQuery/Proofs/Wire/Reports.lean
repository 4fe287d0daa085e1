import ExtendedQuery.Proofs.Wire.Reading

/-!
# Fields of errors and notices

A report is a list of entries and a zero byte, but the server is not trusted: any body is so many whole entries
and a rest in which no further one begins (`Report.Splits`). A search goes from entry to entry and never into one.
Main statement: `BackendMessage.reports_faithful`.
-/

namespace ExtendedQuery

open Wire

namespace Wire

namespace Report

variable {code : UInt8} {body later rest : Bytes}

structure Entry where
  code : UInt8
  text : Bytes
  deriving DecidableEq, Repr

namespace Entry

def written (e : Entry) : Bytes := e.code :: (e.text ++ [0])

structure WellFormed (e : Entry) : Prop where
  code : e.code ≠ 0
  text : 0 ∉ e.text

end Entry

def textOf (code : UInt8) (entries : List Entry) : Option String :=
  (entries.find? (·.code == code)).bind fun e => Bytes.toString? e.text

theorem textOf_cons (code : UInt8) (e : Entry) (entries : List Entry) : textOf code (e :: entries) =
    if e.code = code then Bytes.toString? e.text else textOf code entries := by
  unfold textOf
  by_cases found : e.code = code
  · rw [if_pos found, List.find?_cons_of_pos (by simpa using found)]
    rfl
  · rw [if_neg found, List.find?_cons_of_neg (by simpa using found)]

/-- Where no whole entry begins: at the zero byte that ends a report, or where no text ends any more. -/
def Ends (rest : Bytes) : Prop := rest.head? = some 0 ∨ 0 ∉ rest

structure Splits (body : Bytes) (entries : List Entry) (rest : Bytes) : Prop where
  body : body = entries.flatMap Entry.written ++ rest
  wellFormed : ∀ e ∈ entries, e.WellFormed
  ends : Ends rest

inductive Round where
  | answer (text : Option String)
  | next (later : Bytes)

def round (code : UInt8) (body : Bytes) : Round :=
  match body with
  | [] => .answer none
  | found :: rest =>
    if found = 0 then .answer none
    else
      match Reader.untilZero rest with
      | .error _ => .answer none
      | .ok (text, later) => if found = code then .answer (Bytes.toString? text) else .next later

def search (code : UInt8) : (rounds : Nat) → Bytes → Option (Option String)
  | 0, _ => none
  | rounds + 1, body =>
    match round code body with
    | .answer text => some text
    | .next later => search code rounds later

theorem round_written {e : Entry} (good : e.WellFormed) (code : UInt8) (rest : Bytes) :
    round code (e.written ++ rest) = if e.code = code then .answer (Bytes.toString? e.text) else .next rest := by
  have text : Reader.untilZero (e.text ++ [0] ++ rest) = .ok (e.text, rest) :=
    Reader.untilZero_eq_ok.2 ⟨good.text, by simp⟩
  rw [Entry.written, List.cons_append, round, if_neg good.code, text]

theorem round_ends (ends : Ends rest) (code : UInt8) : round code rest = .answer none := by
  cases rest with
  | nil => rfl
  | cons found rest =>
    rw [round]
    split
    · rfl
    · rename_i coded
      cases read : Reader.untilZero rest with
      | error e => rfl
      | ok cut =>
        obtain ⟨-, rfl⟩ := Reader.untilZero_eq_ok.1 read
        rcases ends with zero | absent
        · exact absurd (Option.some.inj zero) coded
        · simp at absent

theorem length_of_round (next : round code body = .next later) : later.length + 2 ≤ body.length := by
  cases body with
  | nil => cases next
  | cons found rest =>
    rw [round] at next
    split at next
    · cases next
    · split at next
      · cases next
      · rename_i read
        obtain ⟨-, rfl⟩ := Reader.untilZero_eq_ok.1 read
        split at next <;> cases next
        simp

theorem fieldIn_eq_round (code : UInt8) (body : Bytes) : fieldIn code body =
    match round code body with
    | .answer text => text
    | .next later => fieldIn code later := by
  rw [fieldIn.eq_def]
  cases body with
  | nil => rfl
  | cons found rest =>
    rw [round]
    dsimp only
    split
    · rfl
    · unfold Reader.untilZero
      split <;> rename_i stopped <;> rw [stopped]
      split <;> rfl

/-- Each round but the last one passes a code and a zero byte, so half the bytes bound the rounds. -/
theorem search_ends {rounds : Nat} (enough : body.length < 2 * rounds) (code : UInt8) :
    search code rounds body = some (fieldIn code body) := by
  induction rounds generalizing body with
  | zero => omega
  | succ rounds ih =>
    rw [search, fieldIn_eq_round]
    cases next : round code body with
    | answer text => rfl
    | next later =>
      have shorter := length_of_round next
      exact ih (by omega)

theorem exists_splits (body : Bytes) : ∃ entries rest, Splits body entries rest := by
  by_cases ends : Ends body
  · exact ⟨[], body, rfl, nofun, ends⟩
  · obtain ⟨coded, zero⟩ := not_or.1 ends
    rw [not_not] at zero
    cases body with
    | nil => cases zero
    | cons found tail =>
      have nonzero : found ≠ 0 := fun same => coded (congrArg some same)
      obtain ⟨text, later, rfl, absent⟩ := List.eq_append_cons_of_mem (List.mem_of_ne_of_mem nonzero.symm zero)
      obtain ⟨entries, rest, rfl, good, ended⟩ := exists_splits later
      refine ⟨⟨found, text⟩ :: entries, rest, by simp [Entry.written], ?_, ended⟩
      exact List.forall_mem_cons.2 ⟨⟨nonzero, absent⟩, good⟩
termination_by body.length

theorem Splits.fieldIn {entries : List Entry} (splits : Splits body entries rest) (code : UInt8) :
    fieldIn code body = textOf code entries := by
  obtain ⟨rfl, good, ends⟩ := splits
  induction entries with
  | nil =>
    rw [fieldIn_eq_round, List.flatMap_nil, List.nil_append, round_ends ends]
    rfl
  | cons e entries ih =>
    rw [List.forall_mem_cons] at good
    rw [fieldIn_eq_round, List.flatMap_cons, List.append_assoc, round_written good.1, textOf_cons]
    by_cases found : e.code = code
    · rw [if_pos found, if_pos found]
    · rw [if_neg found, if_neg found]
      exact ih good.2

theorem Splits.take {entries : List Entry} (splits : Splits body entries rest) (count : Nat) :
    ∃ kept left, kept <+: entries ∧ Splits (body.take count) kept left := by
  obtain ⟨rfl, good, ends⟩ := splits
  induction entries generalizing count with
  | nil =>
    refine ⟨[], rest.take count, List.nil_prefix, rfl, nofun, ?_⟩
    rcases ends with zero | absent
    · cases count with
      | zero => exact .inr List.not_mem_nil
      | succ count => exact .inl (by rw [← zero, List.head?_take, if_neg (Nat.succ_ne_zero count)])
    · exact .inr fun member => absent (List.mem_of_mem_take member)
  | cons e entries ih =>
    rw [List.forall_mem_cons] at good
    rw [List.flatMap_cons, List.append_assoc]
    by_cases whole : e.written.length ≤ count
    · obtain ⟨kept, left, part, body, each, ends⟩ := ih (count - e.written.length) good.2
      refine ⟨e :: kept, left, List.prefix_cons_inj e |>.2 part, ?_, List.forall_mem_cons.2 ⟨good.1, ?_⟩, ends⟩
      · rw [List.take_append, List.take_of_length_le whole, body, List.flatMap_cons, List.append_assoc]
      · exact fun e' member => good.2 e' (part.subset member)
    · -- The cut is before the zero byte of the entry.
      refine ⟨[], (e.code :: e.text).take count, List.nil_prefix, ?_, nofun, .inr ?_⟩
      · rw [Entry.written, List.length_cons, List.length_append, List.length_singleton] at whole
        have shape : e.written ++ (entries.flatMap Entry.written ++ rest) =
            (e.code :: e.text) ++ (0 :: (entries.flatMap Entry.written ++ rest)) := by simp [Entry.written]
        rw [shape, List.take_append_of_le_length (by simp; omega)]
        rfl
      · intro member
        rcases List.mem_cons.1 (List.mem_of_mem_take member) with zero | member
        · exact good.1.code zero.symm
        · exact good.1.text member

theorem textOf_prefix {kept entries : List Entry} (part : kept <+: entries) (code : UInt8) :
    textOf code kept = none ∨ textOf code kept = textOf code entries := by
  obtain ⟨more, rfl⟩ := part
  rw [textOf, textOf, List.find?_append]
  cases kept.find? (·.code == code) with
  | none => exact .inl rfl
  | some e => exact .inr rfl

/-- What can be relied on when a field is looked up in a body. -/
structure Faithful (lookup : Bytes → UInt8 → Option String) : Prop where
  written : ∀ entries later code, (∀ e ∈ entries, Entry.WellFormed e) →
    lookup (entries.flatMap Entry.written ++ 0 :: later) code = textOf code entries
  splits : ∀ body, ∃ entries rest, Splits body entries rest ∧ ∀ code, lookup body code = textOf code entries
  ends : ∀ body code rounds, body.length < 2 * rounds → search code rounds body = some (lookup body code)
  truncated : ∀ body count code,
    lookup (body.take count) code = none ∨ lookup (body.take count) code = lookup body code

theorem fieldIn_faithful : Faithful fun body code => fieldIn code body := by
  constructor
  case written =>
    intro entries later code good
    have splits : Splits (entries.flatMap Entry.written ++ 0 :: later) entries (0 :: later) := ⟨rfl, good, .inl rfl⟩
    exact splits.fieldIn code
  case splits =>
    intro body
    obtain ⟨entries, rest, splits⟩ := exists_splits body
    exact ⟨entries, rest, splits, splits.fieldIn⟩
  case ends => exact fun body code rounds enough => search_ends enough code
  case truncated =>
    intro body count code
    obtain ⟨entries, rest, splits⟩ := exists_splits body
    obtain ⟨kept, left, part, cut⟩ := splits.take count
    rw [splits.fieldIn, cut.fieldIn]
    exact textOf_prefix part code

end Report

namespace BackendMessage

def report? : BackendMessage → Option Report
  | .errorResponse report | .noticeResponse report => some report
  | _ => none

def fieldOf (kind : BackendKind) (body : Bytes) (code : UInt8) : Option String :=
  ((decode kind.typeByte body).toOption.bind report?).bind (·.field code)

/-- The fields of errors and of notices are the ones that were written, in whatever the server sends. -/
theorem reports_faithful :
    Report.Faithful (fieldOf .errorResponse) ∧ Report.Faithful (fieldOf .noticeResponse) :=
  ⟨Report.fieldIn_faithful, Report.fieldIn_faithful⟩

end BackendMessage

end Wire

end ExtendedQuery
