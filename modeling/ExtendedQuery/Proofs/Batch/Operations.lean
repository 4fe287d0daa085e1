import ExtendedQuery.Proofs.Batch.Groups

/-!
# Operations on an insert

Rows are queued and dropped, and what the server reports is recorded, in any order. Whatever was done before, the
number of rows stays within its bounds (`GrownFrom`), and the parameters belong to the rows as long as every row came
with its own parameters (`Queued`). Both follow from what a single operation can do (`Change`).
-/

namespace ExtendedQuery.BatchedStatement

inductive Operation where
  | queueRow
  | addRow (row : ParameterList)
  | reset
  | setTypes (types : List Oid)
  | setFields (fields : List Field)
  | setPrepared (types : Option (List Oid))
  | markParsed (rows : Nat) (types : List Oid)
  | markDescribed (rows : Nat)
  | close
  deriving DecidableEq, Repr

def attempt (s : BatchedStatement) : Operation → Except GrowthError BatchedStatement
  | .queueRow => s.queueRow
  | .addRow row => s.addRow row
  | .reset => .ok s.reset
  | .setTypes types => .ok (s.setTypes types)
  | .setFields fields => .ok (s.setFields fields)
  | .setPrepared types => .ok (s.setPrepared types)
  | .markParsed rows types => .ok (s.markParsed rows types)
  | .markDescribed rows => .ok (s.markDescribed rows)
  | .close => .ok s.close.1

def Operation.movesRows : Operation → Bool
  | .queueRow | .addRow _ | .reset => true
  | _ => false

/-- The rows that were added since the insert was reset, unless one was queued without its parameters. -/
def Operation.track (added : Option (List ParameterList)) : Operation → Option (List ParameterList)
  | .reset => some []
  | .queueRow => none
  | .addRow row => added.map (· ++ [row])
  | _ => added

structure History where
  statement : BatchedStatement
  added : Option (List ParameterList)
  deriving DecidableEq, Repr

namespace History

def perform (h : History) (operation : Operation) : History :=
  match h.statement.attempt operation with
  | .error _ => h
  | .ok t => ⟨t, operation.track h.added⟩

def performAll (h : History) (operations : List Operation) : History := operations.foldl perform h

end History

section

variable {s t : BatchedStatement} {row : ParameterList} {e : GrowthError}

theorem queueRow_eq_error_iff : s.queueRow = .error e ↔ s.IsFull s.maxRows ∧ e = .full s.rows := by
  by_cases full : s.IsFull s.maxRows
  · simp [queueRow_of_full full, full, eq_comm]
  · simp [queueRow_of_room full, full]

theorem addRow_eq_error_iff : s.addRow row = .error e ↔
    row.length ≠ s.arity ∧ e = .arityMismatch s.arity row.length ∨
      row.length = s.arity ∧ s.pending ≠ none ∧ s.IsFull s.maxRows ∧ e = .full s.rows := by
  by_cases length : row.length = s.arity
  · cases pending : s.pending with
    | none => simp [addRow_first length pending, length]
    | some queued =>
      rw [addRow_later length pending]
      by_cases full : s.IsFull s.maxRows
      · simp [queueRow_of_full full, Except.map, length, full, eq_comm]
      · simp [queueRow_of_room full, Except.map, length, full]
  · simp [addRow_of_mismatch length, length, eq_comm]

inductive Change (s : BatchedStatement) : Operation → BatchedStatement → Prop
  | reset {t : BatchedStatement} : t.rows = 1 → t.pending = none → Change s .reset t
  | queued {t : BatchedStatement} : ¬ s.IsFull s.maxRows → t.rows = s.rows + 1 → t.pending = s.pending →
      Change s .queueRow t
  | first {t : BatchedStatement} {row : ParameterList} : row.length = s.arity → s.pending = none →
      t.rows = s.rows → t.pending = some row → Change s (.addRow row) t
  | added {t : BatchedStatement} {row queued : ParameterList} : row.length = s.arity →
      s.pending = some queued → ¬ s.IsFull s.maxRows → t.rows = s.rows + 1 →
      t.pending = some (queued ++ row) → Change s (.addRow row) t
  | reported {t : BatchedStatement} {operation : Operation} : operation ≠ .reset → operation ≠ .queueRow →
      (∀ row, operation ≠ .addRow row) → t.rows = s.rows → t.pending = s.pending → Change s operation t

structure Changes (s : BatchedStatement) (operation : Operation) (t : BatchedStatement) : Prop where
  base : t.base = s.base
  baseName : t.baseName = s.baseName
  maxRows : t.maxRows = s.maxRows
  change : Change s operation t

theorem changes_of_bare {operation : Operation} (same : t.bare = s.bare) (reset : operation ≠ .reset)
    (queueRow : operation ≠ .queueRow) (addRow : ∀ row, operation ≠ .addRow row) :
    Changes s operation t := by
  obtain ⟨base, baseName, maxRows, rows, pending⟩ := eq_of_bare same
  exact ⟨base, baseName, maxRows, .reported reset queueRow addRow rows pending⟩

theorem bare_markParsed (rows : Nat) (types : List Oid) (s : BatchedStatement) :
    (s.markParsed rows types).bare = s.bare := by
  unfold markParsed
  split <;> rfl

theorem bare_markDescribed (rows : Nat) (s : BatchedStatement) : (s.markDescribed rows).bare = s.bare := by
  unfold markDescribed
  split <;> rfl

theorem shapes_of_movesRows {operation : Operation} (moves : operation.movesRows = true)
    (done : s.attempt operation = .ok t) : t.shapes = s.shapes := by
  cases operation with
  | queueRow =>
    obtain ⟨-, rfl⟩ := queueRow_eq_ok done
    rfl
  | addRow row => exact shapes_addRow done
  | reset =>
    cases done
    exact s.reset_same.2.2
  | _ => cases moves

theorem attempt_changes {operation : Operation} (done : s.attempt operation = .ok t) :
    Changes s operation t := by
  cases operation with
  | queueRow =>
    obtain ⟨room, rfl⟩ := queueRow_eq_ok done
    exact ⟨rfl, rfl, rfl, .queued room rfl rfl⟩
  | addRow row =>
    obtain ⟨length, ⟨first, rfl⟩ | ⟨queued, later, room, rfl⟩⟩ := addRow_eq_ok done
    · exact ⟨rfl, rfl, rfl, .first length first rfl rfl⟩
    · exact ⟨rfl, rfl, rfl, .added length later room rfl rfl⟩
  | reset =>
    cases done
    obtain ⟨base, baseName, -⟩ := s.reset_same
    obtain ⟨rows, pending, maxRows⟩ := s.reset_single
    exact ⟨base, baseName, maxRows, .reset rows pending⟩
  | setTypes types =>
    cases done
    exact changes_of_bare rfl nofun nofun nofun
  | setFields fields =>
    cases done
    exact changes_of_bare (bare_setFields fields s) nofun nofun nofun
  | setPrepared types =>
    cases done
    exact changes_of_bare (bare_setPrepared types s) nofun nofun nofun
  | markParsed rows types =>
    cases done
    exact changes_of_bare (bare_markParsed rows types s) nofun nofun nofun
  | markDescribed rows =>
    cases done
    exact changes_of_bare (bare_markDescribed rows s) nofun nofun nofun
  | close =>
    cases done
    exact changes_of_bare rfl nofun nofun nofun

end

structure GrownFrom (start t : BatchedStatement) : Prop where
  base : t.base = start.base
  baseName : t.baseName = start.baseName
  maxRows : t.maxRows = start.maxRows
  positive : 0 < t.rows
  most : t.rows ≤ max 1 start.maxRows
  few : t.rows = 1 ∨ t.rows * t.arity ≤ maxParameters

section

variable {start s t : BatchedStatement} {operation : Operation} {group : List ParameterList}

theorem GrownFrom.same (grown : GrownFrom start s) (changes : Changes s operation t)
    (rows : t.rows = s.rows) : GrownFrom start t := by
  constructor
  · exact changes.base.trans grown.base
  · exact changes.baseName.trans grown.baseName
  · exact changes.maxRows.trans grown.maxRows
  · rw [rows]
    exact grown.positive
  · rw [rows]
    exact grown.most
  · rw [rows, arity, changes.base]
    exact grown.few

theorem GrownFrom.single (grown : GrownFrom start s) (changes : Changes s operation t) (rows : t.rows = 1) :
    GrownFrom start t := by
  constructor
  · exact changes.base.trans grown.base
  · exact changes.baseName.trans grown.baseName
  · exact changes.maxRows.trans grown.maxRows
  · omega
  · omega
  · exact .inl rows

theorem GrownFrom.succ (grown : GrownFrom start s) (changes : Changes s operation t)
    (room : ¬ s.IsFull s.maxRows) (rows : t.rows = s.rows + 1) : GrownFrom start t := by
  unfold IsFull at room
  rw [not_or, Nat.not_lt, Nat.not_lt, grown.maxRows] at room
  constructor
  · exact changes.base.trans grown.base
  · exact changes.baseName.trans grown.baseName
  · exact changes.maxRows.trans grown.maxRows
  · omega
  · omega
  · right
    rw [rows, arity, changes.base]
    exact room.1

theorem GrownFrom.step (grown : GrownFrom start s) (changes : Changes s operation t) : GrownFrom start t := by
  cases changes.change with
  | reset rows => exact grown.single changes rows
  | queued room rows => exact grown.succ changes room rows
  | first _ _ rows => exact grown.same changes rows
  | added _ _ room rows => exact grown.succ changes room rows
  | reported _ _ _ rows => exact grown.same changes rows

theorem GrownFrom.queued (grown : GrownFrom start t) (rows : t.rows = max 1 group.length)
    (pending : t.pending = if group = [] then none else some group.flatten) : Queued start t group :=
  ⟨grown.base, grown.baseName, grown.maxRows, rows, pending⟩

theorem queued_of_added {row : ParameterList} (queued : Queued start s group) (grown : GrownFrom start t)
    (change : Change s (.addRow row) t) : Queued start t (group ++ [row]) := by
  have before := queued.pending
  cases change with
  | first _ first rows pending =>
    have empty : group = [] := by
      by_contra nonempty
      rw [first, if_neg nonempty] at before
      cases before
    subst empty
    apply grown.queued
    · rw [rows, queued.rows]
      rfl
    · simp [pending]
  | added _ later _ rows pending =>
    have nonempty : group ≠ [] := by
      intro empty
      rw [later, if_pos empty] at before
      cases before
    rw [later, if_neg nonempty] at before
    cases before
    apply grown.queued
    · rw [rows, queued.rows_of_ne_nil nonempty, List.length_append, List.length_singleton]
      omega
    · simp [pending]
  | reported _ _ other => exact absurd rfl (other row)

theorem queued_track {added : Option (List ParameterList)}
    (queued : ∀ rows, added = some rows → Queued start s rows) (grown : GrownFrom start t)
    (change : Change s operation t) {rows : List ParameterList} (tracked : operation.track added = some rows) :
    Queued start t rows := by
  cases operation with
  | queueRow => cases tracked
  | reset =>
    cases tracked
    cases change with
    | reset rows pending => exact grown.queued rows pending
    | reported other => exact absurd rfl other
  | addRow row =>
    obtain ⟨group, before, rfl⟩ := Option.map_eq_some_iff.1 tracked
    exact queued_of_added (queued group before) grown change
  | _ =>
    have before := queued rows tracked
    cases change with
    | reported _ _ _ same pending =>
      exact grown.queued (same.trans before.rows) (pending.trans before.pending)

namespace History

structure Sound (start : BatchedStatement) (h : History) : Prop where
  grown : GrownFrom start h.statement
  queued : ∀ rows, h.added = some rows → Queued start h.statement rows

variable {h : History}

theorem Sound.perform (sound : Sound start h) (operation : Operation) : Sound start (h.perform operation) := by
  unfold History.perform
  split
  next => exact sound
  next t result =>
    have changes := attempt_changes result
    have grown := sound.grown.step changes
    constructor
    · exact grown
    · intro rows tracked
      exact queued_track sound.queued grown changes.change tracked

theorem Sound.performAll (sound : Sound start h) (operations : List Operation) :
    Sound start (h.performAll operations) := by
  induction operations generalizing h with
  | nil => exact sound
  | cons operation operations ih => exact ih (sound.perform operation)

end History

end

end ExtendedQuery.BatchedStatement
