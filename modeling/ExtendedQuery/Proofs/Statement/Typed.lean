import ExtendedQuery.Proofs.Batch.Returning
import ExtendedQuery.Proofs.Server.Typing

/-!
# Records of types that are kept

What is recorded of a named statement conforms to the types that a server has given it (`Conforms`): each type
recorded for the parse is open or the one that was given, and a statement that is not parsed is not described
either. The records of the replies keep this for single statements, and for an insert with every number of rows
(`TypeTracked`).
-/

namespace ExtendedQuery

open Wire

theorem Resolves.refl (types : List Oid) : Resolves types types :=
  List.forall₂_same.2 fun _ _ => .inr rfl

theorem Resolves.orElse {declared front : List Oid} (resolves : Resolves declared front) (rest : List Oid) :
    List.zipWith Oid.orElse declared (front ++ rest) = front := by
  induction resolves with
  | nil => rfl
  | @cons d r _ _ first _ ih =>
    have given : Oid.orElse d r = r := by
      unfold Oid.orElse
      split
      · rfl
      · rename_i specified
        exact (first.resolve_left specified).symm
    rw [List.cons_append, List.zipWith_cons_cons, ih, given]

theorem Resolves.fill_append {declared front : List Oid} (resolves : Resolves declared front) (rest : List Oid) :
    Oid.fill declared (front ++ rest) = front := by
  have short : declared.length ≤ (front ++ rest).length := by
    rw [List.Forall₂.length_eq resolves, List.length_append]
    exact Nat.le_add_right _ _
  rw [Oid.fill, resolves.orElse, List.drop_of_length_le short, List.append_nil]

theorem Oid.accepts_self (types : List Oid) : Oid.accepts types types = true := by
  simp only [Oid.accepts, BEq.rfl, Bool.true_and]
  induction types with
  | nil => rfl
  | cons oid types ih => simp [ih]

theorem TypingServer.Assigns.resolves {marks : String → Nat} {m : Parse} {types : List Oid}
    (assigns : Assigns marks m types) (few : m.types.length ≤ marks m.sql) :
    ∃ front rest, types = front ++ rest ∧ Resolves m.types front := by
  have enough := few.trans assigns.enough
  refine ⟨types.take m.types.length, types.drop m.types.length, (List.take_append_drop _ _).symm, ?_⟩
  apply List.forall₂_iff_get.2
  constructor
  · rw [List.length_take, min_eq_left enough]
  · intro i declared _
    by_cases open' : m.types.get ⟨i, declared⟩ = Oid.unspecified
    · exact .inl open'
    · right
      have kept := assigns.kept (List.getElem?_eq_getElem declared) open'
      obtain ⟨_, same⟩ := List.getElem?_eq_some_iff.1 kept
      simp [same]

/-- The record of a statement with this text and so many placeholders conforms to what is held. -/
inductive Conforms (sql : String) (count : Nat) : Shape → (held : Option Held) → Prop
  | unparsed {held : Option Held} : Conforms sql count .unknown held
  | parsed {declared front rest : List Oid} {described : Bool} : front.length = count → Resolves declared front →
      Conforms sql count ⟨some declared, described⟩ (some ⟨sql, front ++ rest⟩)

section

variable {sql : String} {count : Nat} {shape : Shape} {held held' : Option Held}

theorem Conforms.undescribed (conforms : Conforms sql count shape held) (unparsed : shape.prepared = none) :
    shape.described = false := by
  cases conforms with
  | unparsed => rfl
  | parsed => cases unparsed

theorem Conforms.given {statement : Held} (conforms : Conforms sql count shape (some statement))
    (parsed : shape.prepared.isSome) : ∃ declared front rest, shape.prepared = some declared ∧
      statement = ⟨sql, front ++ rest⟩ ∧ front.length = count ∧ Resolves declared front := by
  cases conforms with
  | unparsed => cases parsed
  | @parsed declared front rest _ length resolves => exact ⟨declared, front, rest, rfl, rfl, length, resolves⟩

theorem Conforms.fill {statement : Held} (conforms : Conforms sql count shape (some statement))
    (parsed : shape.prepared.isSome) :
    Conforms sql count ⟨shape.prepared.map (Oid.fill · statement.types), shape.described⟩ (some statement) := by
  cases conforms with
  | unparsed => cases parsed
  | @parsed declared front rest _ length resolves =>
    dsimp only [Option.map_some]
    rw [resolves.fill_append]
    exact .parsed length (.refl front)

theorem Conforms.describe (conforms : Conforms sql count shape held) (parsed : shape.prepared.isSome) :
    Conforms sql count ⟨shape.prepared, true⟩ held := by
  cases conforms with
  | unparsed => cases parsed
  | parsed length resolves => exact .parsed length resolves

end

def Descriptor.shape {σ : Type} [Descriptor σ] (s : σ) : Shape := ⟨Descriptor.prepared s, Descriptor.isDescribed s⟩

class TypeTracked (σ : Type) [Descriptor σ] [Tracked σ] where
  Typed : (marks : String → Nat) → Holdings → σ → Prop
  typed_named : ∀ {marks held s}, Typed marks held s → (Descriptor.name s).isUnnamed = false
  typed_marks : ∀ {marks held s}, Typed marks held s →
    (Descriptor.fragments s).placeholderCount ≤ marks (String.ofList (Descriptor.sql s))
  typed_length : ∀ {marks held s}, Typed marks held s →
    (Descriptor.fragments s).placeholderCount ≤ (Descriptor.types s).length
  typed_conforms : ∀ {marks held s}, Typed marks held s →
    Conforms (String.ofList (Descriptor.sql s)) (Descriptor.fragments s).placeholderCount (Descriptor.shape s)
      (held (Descriptor.name s).text)
  typed_frame : ∀ {marks} {held held' : Holdings} {s}, Typed marks held s →
    (∀ name, Tracked.Owns s name → held' name = held name) → Typed marks held' s
  typed_setPrepared : ∀ {marks held s types now}, Typed marks held s →
    Conforms (String.ofList (Descriptor.sql s)) (Descriptor.fragments s).placeholderCount
      ⟨types, Descriptor.isDescribed s && types.isSome⟩ now →
    Typed marks (Function.update held (Descriptor.name s).text now) (Descriptor.setPrepared types s)
  typed_setTypes : ∀ {marks held s statement}, Typed marks held s → (Descriptor.prepared s).isSome →
    held (Descriptor.name s).text = some statement → Typed marks held (Descriptor.setTypes statement.types s)
  typed_setFields : ∀ {marks held s fields}, Typed marks held s → (Descriptor.prepared s).isSome →
    Typed marks held (Descriptor.setFields fields s)
  prepared_setPrepared : ∀ {marks held s}, Typed marks held s → ∀ types,
    Descriptor.prepared (Descriptor.setPrepared types s) = types
  prepared_setTypes : ∀ (types : List Oid) (s : σ),
    Descriptor.prepared (Descriptor.setTypes types s) = (Descriptor.prepared s).map (Oid.fill · types)
  prepared_setFields : ∀ {marks held s}, Typed marks held s → ∀ fields,
    Descriptor.prepared (Descriptor.setFields fields s) = Descriptor.prepared s
  isDescribed_setFields : ∀ {marks held s}, Typed marks held s → ∀ fields,
    Descriptor.isDescribed (Descriptor.setFields fields s) = true

namespace Statement

structure Typed (marks : String → Nat) (held : Holdings) (s : Statement) : Prop where
  named : s.name.isUnnamed = false
  marks : s.fragments.placeholderCount ≤ marks (String.ofList s.sql)
  length : s.fragments.placeholderCount ≤ s.types.length
  conforms : Conforms (String.ofList s.sql) s.fragments.placeholderCount ⟨s.prepared, s.described⟩ (held s.name.text)

variable {marks : String → Nat} {s : Statement}

theorem typed_ofFragments {fragments : Sql.Fragments} {name : StatementName} (named : name.isUnnamed = false)
    (marked : fragments.placeholderCount ≤ marks (String.ofList (ofFragments fragments name).sql)) (held : Holdings) :
    (ofFragments fragments name).Typed marks held := by
  constructor
  · exact named
  · exact marked
  · exact List.length_replicate.ge
  · exact .unparsed

theorem Typed.close {held : Holdings} (typed : s.Typed marks held) (held' : Holdings) :
    s.close.1.Typed marks held' := ⟨typed.named, typed.marks, typed.length, .unparsed⟩

instance : TypeTracked Statement where
  Typed := Typed
  typed_named typed := typed.named
  typed_marks typed := typed.marks
  typed_length typed := typed.length
  typed_conforms typed := typed.conforms
  typed_frame typed same := by
    refine ⟨typed.named, typed.marks, typed.length, ?_⟩
    rw [same _ ⟨typed.named, rfl⟩]
    exact typed.conforms
  typed_setPrepared {marks held s types now} typed conforms := by
    change (s.setPrepared types).Typed marks (Function.update held s.name.text now)
    rw [setPrepared_of_named typed.named]
    refine ⟨typed.named, typed.marks, typed.length, ?_⟩
    rw [Function.update_self]
    exact conforms
  typed_setTypes {marks held s statement} typed parsed found := by
    have conforms := typed.conforms
    change held s.name.text = some statement at found
    rw [found] at conforms
    obtain ⟨_, front, rest, -, rfl, length, -⟩ := conforms.given parsed
    refine ⟨typed.named, typed.marks, ?_, ?_⟩
    · change s.fragments.placeholderCount ≤ (front ++ rest).length
      rw [List.length_append, length]
      exact Nat.le_add_right _ _
    · change Conforms _ _ _ (held s.name.text)
      rw [found]
      exact conforms.fill parsed
  typed_setFields typed parsed := ⟨typed.named, typed.marks, typed.length, typed.conforms.describe parsed⟩
  prepared_setPrepared {marks held s} typed types := by
    change (s.setPrepared types).prepared = types
    rw [setPrepared_of_named typed.named]
  prepared_setTypes _ _ := rfl
  prepared_setFields _ _ := rfl
  isDescribed_setFields _ _ := rfl

end Statement

namespace BatchedStatement

structure Typed (marks : String → Nat) (held : Holdings) (s : BatchedStatement) : Prop where
  named : s.baseName.isUnnamed = false
  later : s.base.later ≠ []
  positive : 0 < s.rows
  template : s.template.length = s.arity
  types : s.arity * s.rows ≤ s.types.length
  ordered : s.shapes.Ordered
  marks : ∀ rows, 0 < rows → s.arity * rows ≤ marks (s.sqlOf rows)
  conforms : ∀ rows, 0 < rows →
    Conforms (s.sqlOf rows) (s.arity * rows) (s.shapeAt rows) (held (s.baseName.ofRows rows).text)

variable {marks : String → Nat} {held : Holdings} {s t : BatchedStatement}

theorem Typed.placeholderCount (typed : s.Typed marks held) : s.fragments.placeholderCount = s.arity * s.rows :=
  Sql.Fragments.placeholderCount_grow typed.later typed.positive

theorem typed_ofFragments {fragments : Sql.Fragments} (growable : fragments.isGrowable = true)
    {name : StatementName} (named : name.isUnnamed = false) {maxRows : Nat}
    (made : s = ofStatement (.ofFragments fragments name) maxRows)
    (marked : ∀ rows, 0 < rows → s.arity * rows ≤ marks (s.sqlOf rows)) (held : Holdings) : s.Typed marks held := by
  subst made
  constructor
  · exact named
  · exact Sql.Fragments.later_ne_nil_of_isGrowable growable
  · exact Nat.one_pos
  · exact List.length_replicate
  · exact (Nat.mul_one _).trans_le List.length_replicate.ge
  · exact List.Pairwise.nil
  · exact marked
  · exact fun _ _ => .unparsed

theorem Typed.close (typed : s.Typed marks held) (held' : Holdings) : s.close.1.Typed marks held' :=
  ⟨typed.named, typed.later, typed.positive, typed.template, typed.types, List.Pairwise.nil, typed.marks,
    fun _ _ => .unparsed⟩

theorem Typed.withPending (typed : s.Typed marks held) (pending : Option ParameterList) :
    ({ s with pending := pending } : BatchedStatement).Typed marks held :=
  ⟨typed.named, typed.later, typed.positive, typed.template, typed.types, typed.ordered, typed.marks, typed.conforms⟩

theorem Typed.reshape (typed : s.Typed marks held) {rows : Nat} (positive : 0 < rows) :
    (s.reshape rows).Typed marks held := by
  refine ⟨typed.named, typed.later, positive, typed.template, ?_, typed.ordered, typed.marks, typed.conforms⟩
  apply Nat.le_of_eq
  change s.arity * rows = (List.replicate rows s.template).flatten.length
  simp [typed.template, Nat.mul_comm]

theorem Typed.reset (typed : s.Typed marks held) : s.reset.Typed marks held := by
  have dropped := typed.withPending none
  unfold BatchedStatement.reset
  dsimp only
  split
  · exact dropped
  · exact dropped.reshape Nat.one_pos

theorem Typed.addRow (typed : s.Typed marks held) {row : ParameterList} (added : s.addRow row = .ok t) :
    t.Typed marks held ∧ t.baseName = s.baseName := by
  obtain ⟨-, ⟨-, rfl⟩ | ⟨queued, -, -, rfl⟩⟩ := addRow_eq_ok added
  · exact ⟨typed.withPending _, rfl⟩
  · exact ⟨(typed.reshape s.rows.succ_pos).withPending _, rfl⟩

theorem shapeAt_setPrepared (named : s.baseName.isUnnamed = false) (ordered : s.shapes.Ordered)
    (types : Option (List Oid)) :
    (s.setPrepared types).shapeAt s.rows = ⟨types, s.isDescribed && types.isSome⟩ := by
  cases types with
  | none =>
    rw [shapeAt_forget, if_pos rfl, Option.isSome_none, Bool.and_false]
    rfl
  | some types =>
    have parsed := shapeAt_markParsed named ordered s.rows types s.rows
    rw [Option.isSome_some, Bool.and_true]
    exact parsed.trans (if_pos rfl)

theorem shapeAt_setTypes (types : List Oid) :
    (s.setTypes types).shapeAt s.rows = ⟨s.prepared.map (Oid.fill · types), s.isDescribed⟩ :=
  (shapeAt_report types s.rows).trans (if_pos rfl)

theorem shapeAt_setFields (named : s.baseName.isUnnamed = false) (ordered : s.shapes.Ordered)
    (fields : List Field) : (s.setFields fields).shapeAt s.rows = ⟨s.prepared, true⟩ :=
  (shapeAt_markDescribed (s := { s with fields := fields }) named ordered s.rows s.rows).trans (if_pos rfl)

theorem Typed.reported (typed : s.Typed marks held) (reported : s.Reported t) (template : t.template.length = s.arity)
    (types : s.arity * s.rows ≤ t.types.length) (ordered : t.shapes.Ordered) {now : Option Held}
    (conforms : Conforms (s.sqlOf s.rows) (s.arity * s.rows) (t.shapeAt s.rows) now) :
    t.Typed marks (Function.update held s.name.text now) := by
  obtain ⟨base, baseName, -, rows, -⟩ := eq_of_bare reported.bare
  have arity : t.arity = s.arity := by rw [BatchedStatement.arity, base, BatchedStatement.arity]
  have sql := sqlOf_of_bare reported.bare
  constructor
  · rw [baseName]
    exact typed.named
  · rw [base]
    exact typed.later
  · rw [rows]
    exact typed.positive
  · rw [arity]
    exact template
  · rw [arity, rows]
    exact types
  · exact ordered
  · rw [arity]
    intro r positive
    rw [sql]
    exact typed.marks r positive
  · rw [arity, baseName]
    intro r positive
    rw [sql]
    by_cases here : r = s.rows
    · subst here
      change Conforms _ _ _ (Function.update held s.name.text now s.name.text)
      rw [Function.update_self]
      exact conforms
    · have other : (s.baseName.ofRows r).text ≠ s.name.text :=
        fun equal => here (text_ofRows_inj typed.named positive typed.positive equal)
      rw [Function.update_of_ne other, shapeAt, reported.others r here]
      exact typed.conforms r positive

theorem shape_of_reported (reported : s.Reported t) : t.shape = t.shapeAt s.rows := by
  obtain ⟨-, -, -, rows, -⟩ := eq_of_bare reported.bare
  rw [← rows]
  rfl

instance : TypeTracked BatchedStatement where
  Typed := Typed
  typed_named {marks held s} typed := by
    change (s.baseName.ofRows s.rows).isUnnamed = false
    rw [StatementName.isUnnamed_ofRows]
    exact typed.named
  typed_marks typed := typed.placeholderCount.trans_le (typed.marks _ typed.positive)
  typed_length typed := typed.placeholderCount.trans_le typed.types
  typed_conforms {marks held s} typed := by
    change Conforms _ s.fragments.placeholderCount _ _
    rw [typed.placeholderCount]
    exact typed.conforms s.rows typed.positive
  typed_frame typed same := by
    refine ⟨typed.named, typed.later, typed.positive, typed.template, typed.types, typed.ordered, typed.marks, ?_⟩
    intro rows positive
    rw [same _ ⟨typed.named, rows, positive, rfl⟩]
    exact typed.conforms rows positive
  typed_setPrepared {marks held s types now} typed conforms := by
    change Conforms _ s.fragments.placeholderCount _ _ at conforms
    rw [typed.placeholderCount] at conforms
    obtain ⟨shapes, same⟩ := setPrepared_eq types s
    apply typed.reported (reported_setPrepared types s)
    · rw [same]
      exact typed.template
    · rw [same]
      exact typed.types
    · exact ordered_setPrepared typed.ordered types
    · rw [shapeAt_setPrepared typed.named typed.ordered]
      exact conforms
  typed_setTypes {marks held s statement} typed parsed found := by
    have conforms := typed.conforms s.rows typed.positive
    change held (s.baseName.ofRows s.rows).text = some statement at found
    rw [found] at conforms
    obtain ⟨_, front, rest, -, rfl, length, -⟩ := conforms.given parsed
    rw [← Function.update_eq_self (s.baseName.ofRows s.rows).text held, found]
    apply typed.reported (reported_setTypes _ s)
    · exact (length_foldTemplate _ _ _).trans typed.template
    · change _ ≤ (front ++ rest).length
      rw [List.length_append, length]
      exact Nat.le_add_right _ _
    · rw [shapes_setTypes]
      exact typed.ordered.mapShape _ _
    · rw [shapeAt_setTypes]
      exact conforms.fill parsed
  typed_setFields {marks held s fields} typed parsed := by
    obtain ⟨shapes, same⟩ := setFields_eq fields s
    rw [← Function.update_eq_self (s.baseName.ofRows s.rows).text held]
    apply typed.reported (reported_setFields fields s)
    · rw [same]
      exact typed.template
    · rw [same]
      exact typed.types
    · exact ordered_setFields typed.ordered fields
    · rw [shapeAt_setFields typed.named typed.ordered]
      exact (typed.conforms s.rows typed.positive).describe parsed
  prepared_setPrepared {marks held s} typed types := by
    have now := shapeAt_setPrepared typed.named typed.ordered types
    rw [← shape_of_reported (reported_setPrepared types s)] at now
    exact congrArg Shape.prepared now
  prepared_setTypes types s := by
    have now := shapeAt_setTypes (s := s) types
    rw [← shape_of_reported (reported_setTypes types s)] at now
    exact congrArg Shape.prepared now
  prepared_setFields {marks held s} typed fields := by
    have now := shapeAt_setFields typed.named typed.ordered fields
    rw [← shape_of_reported (reported_setFields fields s)] at now
    have same := congrArg Shape.prepared now
    exact same
  isDescribed_setFields {marks held s} typed fields := by
    have now := shapeAt_setFields typed.named typed.ordered fields
    rw [← shape_of_reported (reported_setFields fields s)] at now
    exact congrArg Shape.described now

end BatchedStatement

end ExtendedQuery
