import ExtendedQuery.Proofs.Batch.Template
import ExtendedQuery.Proofs.Statement.Typed

/-!
# Shapes are kept apart

Most operations are about the shape of the present number of rows, and others change that number. What is recorded
of a shape is nevertheless what the operations about it have recorded, one after the other (`Shape.perform`,
`History.concerning`), as if there were no other shape; closing concerns all of them. Main statement:
`shapes_separate`.
-/

namespace ExtendedQuery

open BatchedStatement in
def Shape.perform (shape : Shape) : Operation → Shape
  | .markParsed _ types | .setPrepared (some types) => { shape with prepared := some types }
  | .markDescribed _ | .setFields _ => { shape with described := true }
  | .setTypes types => { shape with prepared := shape.prepared.map (Oid.fill · types) }
  | .setPrepared none | .close => .unknown
  | .queueRow | .addRow _ | .reset => shape

namespace BatchedStatement

/-- The operation is about the shape of `k` rows when the insert has `rows` rows. -/
def Operation.concerns (rows k : Nat) : Operation → Bool
  | .markParsed r _ | .markDescribed r => k = r
  | .setPrepared _ | .setTypes _ | .setFields _ => k = rows
  | .close => true
  | .queueRow | .addRow _ | .reset => false

def Operation.IsPositive : Operation → Prop
  | .markParsed rows _ | .markDescribed rows => 0 < rows
  | _ => True

variable {s t : BatchedStatement} {operation : Operation}

theorem shapeAt_attempt (named : s.baseName.isUnnamed = false) (ordered : s.shapes.Ordered)
    (done : s.attempt operation = .ok t) (k : Nat) :
    t.shapeAt k = if operation.concerns s.rows k then (s.shapeAt k).perform operation else s.shapeAt k := by
  cases operation with
  | queueRow | addRow row | reset =>
    unfold shapeAt
    rw [shapes_of_movesRows rfl done]
    rfl
  | setTypes types =>
    cases done
    simp only [shapeAt_report, Operation.concerns, decide_eq_true_eq]
    rfl
  | setFields fields =>
    cases done
    have described := shapeAt_markDescribed (s := { s with fields := fields }) named ordered s.rows k
    simp only [Operation.concerns, decide_eq_true_eq]
    exact described
  | setPrepared types =>
    cases done
    simp only [Operation.concerns, decide_eq_true_eq]
    cases types with
    | none => exact shapeAt_forget k
    | some types => exact shapeAt_markParsed named ordered s.rows types k
  | markParsed rows types =>
    cases done
    simp only [Operation.concerns, decide_eq_true_eq]
    exact shapeAt_markParsed named ordered rows types k
  | markDescribed rows =>
    cases done
    simp only [Operation.concerns, decide_eq_true_eq]
    exact shapeAt_markDescribed named ordered rows k
  | close =>
    cases done
    rfl

theorem ordered_attempt (ordered : s.shapes.Ordered) (done : s.attempt operation = .ok t) : t.shapes.Ordered := by
  cases operation with
  | queueRow | addRow row | reset =>
    rw [shapes_of_movesRows rfl done]
    exact ordered
  | setTypes types =>
    cases done
    rw [shapes_setTypes]
    exact ordered.mapShape s.rows _
  | setFields fields =>
    cases done
    exact ordered_setFields ordered fields
  | setPrepared types =>
    cases done
    exact ordered_setPrepared ordered types
  | markParsed rows types =>
    cases done
    exact ordered_markParsed ordered rows types
  | markDescribed rows =>
    cases done
    exact ordered_markDescribed ordered rows
  | close =>
    cases done
    exact List.Pairwise.nil

theorem shapes_attempt_of_unnamed (unnamed : s.baseName.isUnnamed = true) (nothing : s.shapes = [])
    (done : s.attempt operation = .ok t) : t.shapes = [] := by
  cases operation with
  | queueRow | addRow row | reset => exact (shapes_of_movesRows rfl done).trans nothing
  | setTypes types =>
    cases done
    rw [shapes_setTypes, nothing]
    rfl
  | setFields fields =>
    cases done
    exact shapes_setFields_of_unnamed unnamed nothing fields
  | setPrepared types =>
    cases done
    exact shapes_setPrepared_of_unnamed unnamed nothing types
  | markParsed rows types =>
    cases done
    unfold markParsed
    rw [if_pos unnamed]
    exact nothing
  | markDescribed rows =>
    cases done
    unfold markDescribed
    rw [if_pos unnamed]
    exact nothing
  | close =>
    cases done
    rfl

namespace History

theorem keeps (P : BatchedStatement → Prop) {operations : List Operation}
    (kept : ∀ operation ∈ operations, ∀ s t, P s → s.attempt operation = .ok t → P t) {h : History}
    (holds : P h.statement) : P (h.performAll operations).statement := by
  induction operations generalizing h with
  | nil => exact holds
  | cons operation later ih =>
    apply ih fun other member => kept other (List.mem_cons_of_mem operation member)
    unfold perform
    split
    next => exact holds
    next t done => exact kept operation List.mem_cons_self _ t holds done

def concerning (k : Nat) (h : History) : List Operation → List Operation
  | [] => []
  | operation :: later =>
    let rest := (h.perform operation).concerning k later
    if operation.concerns h.statement.rows k then operation :: rest else rest

theorem concerns_of_error {h : History} {operation : Operation} {e : GrowthError}
    (failed : h.statement.attempt operation = .error e) (rows k : Nat) : operation.concerns rows k = false := by
  cases operation with
  | queueRow | addRow row => rfl
  | _ => cases failed

theorem shapeAt_perform {h : History} (named : h.statement.baseName.isUnnamed = false)
    (ordered : h.statement.shapes.Ordered) (operation : Operation) (k : Nat) :
    (h.perform operation).statement.shapeAt k =
      if operation.concerns h.statement.rows k then (h.statement.shapeAt k).perform operation
      else h.statement.shapeAt k := by
  unfold perform
  split
  next e failed => rw [if_neg (by simp [concerns_of_error failed])]
  next t done => exact shapeAt_attempt named ordered done k

end History

structure Separate (s : BatchedStatement) : Prop where
  named : s.baseName.isUnnamed = false
  ordered : s.shapes.Ordered

theorem Separate.attempt (separate : s.Separate) (done : s.attempt operation = .ok t) : t.Separate := by
  constructor
  · rw [(attempt_changes done).baseName]
    exact separate.named
  · exact ordered_attempt separate.ordered done

theorem Separate.perform {h : History} (separate : h.statement.Separate) (operation : Operation) :
    (h.perform operation).statement.Separate := by
  unfold History.perform
  split
  next => exact separate
  next t done => exact separate.attempt done

theorem Separate.shapeAt_performAll {h : History} (separate : h.statement.Separate) (operations : List Operation)
    (k : Nat) : (h.performAll operations).statement.shapeAt k =
      (h.concerning k operations).foldl Shape.perform (h.statement.shapeAt k) := by
  induction operations generalizing h with
  | nil => rfl
  | cons operation later ih =>
    have first := History.shapeAt_perform separate.named separate.ordered operation k
    change ((h.perform operation).performAll later).statement.shapeAt k = _
    rw [ih (separate.perform operation), first, History.concerning]
    split <;> rfl

theorem closed_names (separate : s.Separate) (nothing : s.shapeAt 0 = .unknown) :
    s.close.2.Nodup ∧ ∀ name, name ∈ s.close.2 ↔
      ∃ rows, 0 < rows ∧ (s.shapeAt rows).prepared.isSome = true ∧ name = s.baseName.ofRows rows := by
  have parsed (rows : Nat) : rows ∈ s.shapes.parsedRows ↔ (s.shapeAt rows).prepared.isSome = true :=
    Shapes.mem_parsedRows separate.ordered rows
  have positive {rows : Nat} (member : rows ∈ s.shapes.parsedRows) : 0 < rows := by
    apply Nat.pos_of_ne_zero
    rintro rfl
    rw [parsed, nothing] at member
    cases member
  constructor
  · apply List.Nodup.map_on _ separate.ordered.nodup_parsedRows
    intro a ha b hb same
    exact StatementName.ofRows_inj separate.named (positive ha) (positive hb) same
  · intro name
    change name ∈ s.shapes.parsedRows.map s.baseName.ofRows ↔ _
    rw [List.mem_map]
    constructor
    · rintro ⟨rows, member, rfl⟩
      exact ⟨rows, positive member, (parsed rows).1 member, rfl⟩
    · rintro ⟨rows, -, recorded, rfl⟩
      exact ⟨rows, (parsed rows).2 recorded, rfl⟩

theorem Operation.not_concerns_of_movesRows (moves : operation.movesRows = true) (rows k : Nat) :
    operation.concerns rows k = false := by
  cases operation with
  | queueRow | addRow row | reset => rfl
  | _ => cases moves

theorem Operation.IsPositive.concerns_zero (positive : operation.IsPositive) {rows : Nat} (above : 0 < rows)
    (concerns : operation.concerns rows 0 = true) : operation = .close := by
  cases operation with
  | close => rfl
  | markParsed r types | markDescribed r => exact absurd (of_decide_eq_true concerns) (Nat.ne_of_lt positive)
  | setPrepared types | setTypes types | setFields fields =>
    exact absurd (of_decide_eq_true concerns) (Nat.ne_of_lt above)
  | _ => cases concerns

theorem Separate.nothing_attempt (separate : s.Separate) (above : 0 < s.rows) (positive : operation.IsPositive)
    (done : s.attempt operation = .ok t) (nothing : s.shapeAt 0 = .unknown) : t.shapeAt 0 = .unknown := by
  rw [shapeAt_attempt separate.named separate.ordered done]
  split
  next concerns =>
    rw [positive.concerns_zero above concerns]
    rfl
  next => exact nothing

theorem GrownFrom.nothing_performAll {start : BatchedStatement} {h : History} (grown : GrownFrom start h.statement)
    (separate : h.statement.Separate) {operations : List Operation}
    (positive : ∀ operation ∈ operations, operation.IsPositive) (nothing : h.statement.shapeAt 0 = .unknown) :
    (h.performAll operations).statement.Separate ∧ (h.performAll operations).statement.shapeAt 0 = .unknown := by
  apply And.right
  -- Reports are about the present number of rows, so that number has to stay positive as well.
  apply History.keeps (fun s => GrownFrom start s ∧ s.Separate ∧ s.shapeAt 0 = .unknown) ?_
    ⟨grown, separate, nothing⟩
  rintro operation member s t ⟨grown, separate, nothing⟩ done
  refine ⟨grown.step (attempt_changes done), separate.attempt done, ?_⟩
  exact separate.nothing_attempt grown.positive (positive operation member) done nothing

theorem shapes_performAll_of_unnamed {h : History} (unnamed : h.statement.baseName.isUnnamed = true)
    (nothing : h.statement.shapes = []) (operations : List Operation) :
    (h.performAll operations).statement.shapes = [] := by
  apply And.right
  apply History.keeps (fun s => s.baseName.isUnnamed = true ∧ s.shapes = []) ?_ ⟨unnamed, nothing⟩
  rintro operation - s t ⟨unnamed, nothing⟩ done
  constructor
  · rw [(attempt_changes done).baseName]
    exact unnamed
  · exact shapes_attempt_of_unnamed unnamed nothing done

/-- What is recorded of a shape is decided by the operations about it. The numbers of rows in between do not matter,
and closing returns the name of every shape that is parsed, once. Nothing is recorded of the unnamed statement. -/
theorem shapes_separate {statement : Statement} (growable : statement.fragments.isGrowable = true) (maxRows : Nat)
    {operations : List Operation} (positive : ∀ operation ∈ operations, operation.IsPositive) :
    ∃ start, new statement maxRows = .ok start ∧
      ∀ h, History.performAll ⟨start, some []⟩ operations = h →
        (statement.name.isUnnamed = false →
          (∀ k, h.statement.shapeAt k =
            (History.concerning k ⟨start, some []⟩ operations).foldl Shape.perform .unknown) ∧
          (∀ others k, History.concerning k ⟨start, some []⟩ others =
              History.concerning k ⟨start, some []⟩ operations →
            (History.performAll ⟨start, some []⟩ others).statement.shapeAt k = h.statement.shapeAt k) ∧
          (∀ operation k, operation.movesRows = true →
            (h.perform operation).statement.shapeAt k = h.statement.shapeAt k) ∧
          (h.perform (.setPrepared none)).statement.shapeAt h.statement.rows = .unknown ∧
          h.statement.close.2.Nodup ∧
          ∀ closed, closed ∈ h.statement.close.2 ↔ ∃ rows, 0 < rows ∧
            (h.statement.shapeAt rows).prepared.isSome = true ∧ closed = statement.name.ofRows rows) ∧
        (statement.name.isUnnamed = true → (∀ k, h.statement.shapeAt k = .unknown) ∧ h.statement.close.2 = []) ∧
        ∀ k, h.statement.close.1.shapeAt k = .unknown := by
  refine ⟨ofStatement statement maxRows, if_pos growable, ?_⟩
  rintro h rfl
  have grown := ((sound_ofStatement statement maxRows).performAll operations).grown
  refine ⟨?_, ?_, fun k => rfl⟩
  · intro named
    have fresh : Separate (ofStatement statement maxRows) := ⟨named, List.Pairwise.nil⟩
    have shapeAt := fresh.shapeAt_performAll (h := ⟨ofStatement statement maxRows, some []⟩)
    have sound := sound_ofStatement statement maxRows
    obtain ⟨separate, nothing⟩ := sound.grown.nothing_performAll fresh positive rfl
    refine ⟨shapeAt operations, ?_, ?_, ?_, ?_⟩
    · intro others k same
      rw [shapeAt others, shapeAt operations, same]
    · intro operation k moves
      rw [History.shapeAt_perform separate.named separate.ordered, Operation.not_concerns_of_movesRows moves]
      rfl
    · rw [History.shapeAt_perform separate.named separate.ordered]
      simp [Operation.concerns, Shape.perform]
    · have names := closed_names separate nothing
      rw [grown.baseName] at names
      exact names
  · intro unnamed
    have nothing := shapes_performAll_of_unnamed
      (h := ⟨ofStatement statement maxRows, some []⟩) unnamed rfl operations
    constructor
    · intro k
      unfold shapeAt
      rw [nothing]
      rfl
    · unfold close
      dsimp only
      rw [nothing]
      rfl

def shapeOperations : List Operation :=
  [.queueRow, .setPrepared (some [Oid.int4, Oid.text, Oid.int4, Oid.text]), .setFields [], .reset,
    .markParsed 1 [Oid.int4, Oid.unspecified], .queueRow]

theorem shapes_separate_pair :
    pairStatement.fragments.isGrowable = true ∧ (∀ operation ∈ shapeOperations, operation.IsPositive) ∧
      pairStatement.name.isUnnamed = false ∧
      ∃ h : History, h.statement.rows = 2 ∧
        h.statement.shapeAt 1 = ⟨some [Oid.int4, Oid.unspecified], false⟩ ∧
        h.statement.shapeAt 2 = ⟨some [Oid.int4, Oid.text, Oid.int4, Oid.text], true⟩ ∧
        pairStatement.name.ofRows 1 ∈ h.statement.close.2 ∧ pairStatement.name.ofRows 2 ∈ h.statement.close.2 := by
  have growable : pairStatement.fragments.isGrowable = true := by decide
  have made : new pairStatement 4 = .ok (ofStatement pairStatement 4) := if_pos growable
  have positive : ∀ operation ∈ shapeOperations, operation.IsPositive := by
    simp [shapeOperations, Operation.IsPositive]
  have named : pairStatement.name.isUnnamed = false := by decide
  obtain ⟨start, made', holds⟩ := shapes_separate growable 4 positive
  cases made.symm.trans made'
  obtain ⟨shapes, -, -, -, -, closed⟩ := (holds _ rfl).1 named
  have single := (shapes 1).trans (show _ = ⟨some [Oid.int4, Oid.unspecified], false⟩ from rfl)
  have pair := (shapes 2).trans (show _ = ⟨some [Oid.int4, Oid.text, Oid.int4, Oid.text], true⟩ from rfl)
  refine ⟨growable, positive, named, _, rfl, single, pair, ?_, ?_⟩
  · exact (closed _).2 ⟨1, by decide, by rw [single]; rfl, rfl⟩
  · exact (closed _).2 ⟨2, by decide, by rw [pair]; rfl, rfl⟩

end BatchedStatement

end ExtendedQuery
