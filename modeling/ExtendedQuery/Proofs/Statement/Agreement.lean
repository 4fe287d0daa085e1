import ExtendedQuery.Proofs.Server.Reference
import ExtendedQuery.Proofs.Sql.Growth
import ExtendedQuery.Proofs.Statement.Names
import ExtendedQuery.Proofs.Statement.Shapes

/-!
# Records that agree with the server

What is recorded of a statement agrees with what a server holds (`Tracked.Agrees`) if the statement is
recorded as parsed exactly when the server holds its name, with its text and the recorded types; for an
insert that grows this is said of every number of rows. Nothing is recorded of the unnamed statement. The
records of the replies keep the agreement (`Tracked.agrees_close` and the laws after it).
-/

namespace ExtendedQuery

/-- The record of a statement with this text says what is held. -/
inductive Reflects (sql : String) : (recorded : Option (List Oid)) → (held : Option Held) → Prop
  | missing : Reflects sql none none
  | held {recorded types : List Oid} : Resolves recorded types →
      Reflects sql (some recorded) (some ⟨sql, types⟩)

theorem Reflects.isSome_iff {sql : String} {recorded : Option (List Oid)} {held : Option Held}
    (h : Reflects sql recorded held) : recorded.isSome ↔ held.isSome := by
  cases h <;> simp

theorem Resolves.fill {recorded types : List Oid} (resolves : Resolves recorded types) :
    Resolves (Oid.fill recorded types) types := by
  unfold Oid.fill
  rw [List.drop_of_length_le (Nat.le_of_eq (List.Forall₂.length_eq resolves)), List.append_nil]
  induction resolves with
  | nil => exact .nil
  | cons first _ ih =>
    refine .cons ?_ ih
    unfold Oid.orElse
    rcases first with unknown | same
    · simp [unknown]
    · split
      · exact .inr rfl
      · exact .inr same

theorem Reflects.fill {sql : String} {recorded : Option (List Oid)} {statement : Held}
    (h : Reflects sql recorded (some statement)) :
    Reflects sql (recorded.map (Oid.fill · statement.types)) (some statement) := by
  cases h with
  | held resolves => exact .held resolves.fill

/-- A kind of statement whose records can be compared with the statements of a server. -/
class Tracked (σ : Type) [Descriptor σ] where
  bare : σ → σ
  Owns : σ → String → Prop
  Agrees : Holdings → σ → Prop
  bare_setPrepared : ∀ types s, bare (Descriptor.setPrepared types s) = bare s
  bare_setTypes : ∀ types s, bare (Descriptor.setTypes types s) = bare s
  bare_setFields : ∀ fields s, bare (Descriptor.setFields fields s) = bare s
  name_bare : ∀ s, Descriptor.name (bare s) = Descriptor.name s
  sql_bare : ∀ s, Descriptor.sql (bare s) = Descriptor.sql s
  fragments_bare : ∀ s, Descriptor.fragments (bare s) = Descriptor.fragments s
  owns_bare : ∀ s, Owns (bare s) = Owns s
  owns_name : ∀ s, (Descriptor.name s).isUnnamed = false → Owns s (Descriptor.name s).text
  not_owns_unnamed : ∀ s, ¬ Owns s ""
  agrees_frame : ∀ {held held' : Holdings} {s}, Agrees held s → (∀ name, Owns s name → held' name = held name) →
    Agrees held' s
  agrees_length : ∀ {held s}, Agrees held s →
    (Descriptor.types s).length = (Descriptor.fragments s).placeholderCount
  agrees_unnamed : ∀ {held s}, Agrees held s → (Descriptor.name s).isUnnamed = true →
    Descriptor.prepared s = none
  agrees_name : ∀ {held s}, Agrees held s → (Descriptor.name s).isUnnamed = false →
    Reflects (String.ofList (Descriptor.sql s)) (Descriptor.prepared s) (held (Descriptor.name s).text)
  agrees_close : ∀ {held s}, Agrees held s →
    Agrees (Function.update held (Descriptor.name s).text none) (Descriptor.setPrepared none s)
  agrees_parse : ∀ {held s types resolved}, Agrees held s → Resolves types resolved →
    Agrees (Function.update held (Descriptor.name s).text
      (some ⟨String.ofList (Descriptor.sql s), resolved⟩)) (Descriptor.setPrepared (some types) s)
  agrees_types : ∀ {held s statement}, Agrees held s → held (Descriptor.name s).text = some statement →
    statement.types.length = (Descriptor.fragments s).placeholderCount →
    Agrees held (Descriptor.setTypes statement.types s)
  agrees_fields : ∀ {held s fields}, Agrees held s → Agrees held (Descriptor.setFields fields s)

theorem Tracked.eq_of_bare {σ : Type} [Descriptor σ] [Tracked σ] {s t : σ}
    (same : Tracked.bare s = Tracked.bare t) :
    Descriptor.name s = Descriptor.name t ∧ Descriptor.sql s = Descriptor.sql t ∧
      Descriptor.fragments s = Descriptor.fragments t := by
  refine ⟨?_, ?_, ?_⟩
  · rw [← Tracked.name_bare, same, Tracked.name_bare]
  · rw [← Tracked.sql_bare, same, Tracked.sql_bare]
  · rw [← Tracked.fragments_bare, same, Tracked.fragments_bare]

namespace Statement

def bare (s : Statement) : Statement :=
  { s with types := [], fields := [], prepared := none, described := false }

def Owns (s : Statement) (name : String) : Prop := s.name.isUnnamed = false ∧ name = s.name.text

structure Agrees (held : Holdings) (s : Statement) : Prop where
  length : s.types.length = s.fragments.placeholderCount
  named : s.name.isUnnamed = false → Reflects (String.ofList s.sql) s.prepared (held s.name.text)
  unnamed : s.name.isUnnamed = true → s.prepared = none

theorem setPrepared_of_named {s : Statement} (named : s.name.isUnnamed = false)
    (types : Option (List Oid)) :
    s.setPrepared types = { s with prepared := types, described := s.described && types.isSome } := by
  simp [setPrepared, named]

theorem setPrepared_of_unnamed {s : Statement} (unnamed : s.name.isUnnamed = true)
    (types : Option (List Oid)) : s.setPrepared types = s := by
  simp [setPrepared, unnamed]

theorem agrees_setPrepared {held : Holdings} {s : Statement} (agrees : s.Agrees held)
    {types : Option (List Oid)} {now : Option Held} (reflects : Reflects (String.ofList s.sql) types now) :
    (s.setPrepared types).Agrees (Function.update held s.name.text now) := by
  cases unnamed : s.name.isUnnamed with
  | true =>
    rw [setPrepared_of_unnamed unnamed]
    exact ⟨agrees.length, by simp [unnamed], agrees.unnamed⟩
  | false =>
    rw [setPrepared_of_named unnamed]
    refine ⟨agrees.length, fun _ => ?_, by simp [unnamed]⟩
    rw [Function.update_self]
    exact reflects

instance : Tracked Statement where
  bare := bare
  Owns := Owns
  Agrees := Agrees
  bare_setPrepared types s := by
    simp only [Descriptor.setPrepared, setPrepared]
    split <;> rfl
  bare_setTypes _ _ := rfl
  bare_setFields _ _ := rfl
  name_bare _ := rfl
  sql_bare _ := rfl
  fragments_bare _ := rfl
  owns_bare _ := rfl
  owns_name s named := ⟨named, rfl⟩
  not_owns_unnamed s owns := by
    have unnamed := (StatementName.isUnnamed_iff s.name).2 owns.2.symm
    rw [owns.1] at unnamed
    cases unnamed
  agrees_frame agrees same := by
    refine ⟨agrees.length, fun named => ?_, agrees.unnamed⟩
    rw [same _ ⟨named, rfl⟩]
    exact agrees.named named
  agrees_length agrees := agrees.length
  agrees_unnamed agrees unnamed := agrees.unnamed unnamed
  agrees_name agrees named := agrees.named named
  agrees_close agrees := agrees_setPrepared agrees .missing
  agrees_parse agrees resolves := agrees_setPrepared agrees (.held resolves)
  agrees_types {held s statement} agrees found length := by
    refine ⟨length, fun named => ?_, fun unnamed => ?_⟩
    · have reflects := agrees.named named
      change held s.name.text = some statement at found
      change Reflects (String.ofList s.sql) (s.prepared.map (Oid.fill · statement.types)) (held s.name.text)
      rw [found] at reflects ⊢
      exact reflects.fill
    · change s.prepared.map (Oid.fill · statement.types) = none
      rw [agrees.unnamed unnamed]
      rfl
  agrees_fields agrees := ⟨agrees.length, agrees.named, agrees.unnamed⟩

end Statement

namespace BatchedStatement

def bare (s : BatchedStatement) : BatchedStatement :=
  { s with template := [], types := [], fields := [], shapes := [] }

def sqlOf (s : BatchedStatement) (rows : Nat) : String :=
  String.ofList (Sql.growText s.base.native s.arity rows)

def Owns (s : BatchedStatement) (name : String) : Prop :=
  s.baseName.isUnnamed = false ∧ ∃ rows, 0 < rows ∧ name = (s.baseName.ofRows rows).text

structure Sound (s : BatchedStatement) : Prop where
  marks : s.base.later ≠ []
  positive : 0 < s.rows
  template : s.template.length = s.arity
  types : s.types.length = s.arity * s.rows
  ordered : s.shapes.Ordered

structure Agrees (held : Holdings) (s : BatchedStatement) : Prop where
  sound : s.Sound
  named : s.baseName.isUnnamed = false → ∀ rows, 0 < rows →
    Reflects (s.sqlOf rows) (s.preparedAt rows) (held (s.baseName.ofRows rows).text)
  unnamed : s.baseName.isUnnamed = true → s.shapes = []

theorem text_ofRows_inj {s : BatchedStatement} (named : s.baseName.isUnnamed = false) {a b : Nat}
    (ha : 0 < a) (hb : 0 < b) (same : (s.baseName.ofRows a).text = (s.baseName.ofRows b).text) : a = b :=
  StatementName.ofRows_inj named ha hb (StatementName.eq_of_text same)

theorem setPrepared_eq (types : Option (List Oid)) (s : BatchedStatement) :
    ∃ shapes, s.setPrepared types = { s with shapes := shapes } := by
  cases types with
  | none => exact ⟨_, rfl⟩
  | some types =>
    simp only [setPrepared, markParsed]
    split <;> exact ⟨_, rfl⟩

theorem setFields_eq (fields : List Field) (s : BatchedStatement) :
    ∃ shapes, s.setFields fields = { s with fields := fields, shapes := shapes } := by
  simp only [setFields, markDescribed]
  split <;> exact ⟨_, rfl⟩

theorem bare_setPrepared (types : Option (List Oid)) (s : BatchedStatement) :
    (s.setPrepared types).bare = s.bare := by
  obtain ⟨shapes, same⟩ := setPrepared_eq types s
  rw [same]
  rfl

theorem bare_setFields (fields : List Field) (s : BatchedStatement) :
    (s.setFields fields).bare = s.bare := by
  obtain ⟨shapes, same⟩ := setFields_eq fields s
  rw [same]
  rfl

theorem ordered_setPrepared {s : BatchedStatement} (ordered : s.shapes.Ordered)
    (types : Option (List Oid)) : (s.setPrepared types).shapes.Ordered := by
  cases types with
  | none => exact ordered.erase s.rows
  | some types => exact ordered_markParsed ordered s.rows types

theorem ordered_setFields {s : BatchedStatement} (ordered : s.shapes.Ordered) (fields : List Field) :
    (s.setFields fields).shapes.Ordered :=
  ordered_markDescribed (s := { s with fields := fields }) ordered s.rows

theorem shapes_setPrepared_of_unnamed {s : BatchedStatement} (unnamed : s.baseName.isUnnamed = true)
    (nothing : s.shapes = []) (types : Option (List Oid)) : (s.setPrepared types).shapes = [] := by
  cases types with
  | none => simp [setPrepared, nothing, Shapes.erase]
  | some types => simp [setPrepared, markParsed, unnamed, nothing]

theorem shapes_setFields_of_unnamed {s : BatchedStatement} (unnamed : s.baseName.isUnnamed = true)
    (nothing : s.shapes = []) (fields : List Field) : (s.setFields fields).shapes = [] := by
  simp [setFields, markDescribed, unnamed, nothing]

theorem eq_of_bare {s t : BatchedStatement} (same : s.bare = t.bare) :
    s.base = t.base ∧ s.baseName = t.baseName ∧ s.maxRows = t.maxRows ∧ s.rows = t.rows ∧
      s.pending = t.pending := by
  cases s
  cases t
  simp only [bare, mk.injEq] at same
  exact ⟨same.1, same.2.1, same.2.2.2.1, same.2.2.2.2.1, same.2.2.2.2.2.2.2.2⟩

theorem sqlOf_of_bare {s t : BatchedStatement} (same : s.bare = t.bare) (rows : Nat) :
    s.sqlOf rows = t.sqlOf rows := by
  rw [sqlOf, sqlOf, arity, arity, (eq_of_bare same).1]

theorem length_fill (known found : List Oid) : (Oid.fill known found).length = known.length := by
  simp [Oid.fill]
  omega

theorem length_foldTemplate (arity : Nat) (template reported : List Oid) :
    (foldTemplate arity template reported).length = template.length := by
  fun_induction foldTemplate arity template reported with
  | case1 => rfl
  | case2 => rfl
  | case3 template oid later _ ih => rw [ih, length_fill]

theorem Sound.setPrepared {s : BatchedStatement} (sound : s.Sound) (types : Option (List Oid)) :
    (s.setPrepared types).Sound := by
  have ordered := ordered_setPrepared sound.ordered types
  obtain ⟨shapes, same⟩ := setPrepared_eq types s
  rw [same] at ordered ⊢
  exact ⟨sound.marks, sound.positive, sound.template, sound.types, ordered⟩

theorem Sound.setTypes {s : BatchedStatement} (sound : s.Sound) {types : List Oid}
    (length : types.length = s.arity * s.rows) : (s.setTypes types).Sound := by
  refine ⟨sound.marks, sound.positive, ?_, length, ?_⟩
  · exact (length_foldTemplate _ _ _).trans sound.template
  · rw [shapes_setTypes]
    exact sound.ordered.mapShape _ _

theorem Sound.setFields {s : BatchedStatement} (sound : s.Sound) (fields : List Field) :
    (s.setFields fields).Sound := by
  have ordered := ordered_setFields sound.ordered fields
  obtain ⟨shapes, same⟩ := setFields_eq fields s
  rw [same] at ordered ⊢
  exact ⟨sound.marks, sound.positive, sound.template, sound.types, ordered⟩

theorem Sound.placeholderCount {s : BatchedStatement} (sound : s.Sound) :
    s.fragments.placeholderCount = s.arity * s.rows :=
  Sql.Fragments.placeholderCount_grow sound.marks sound.positive

theorem forall_rows_setPrepared {α : Type} {kept : String → Option α} {s : BatchedStatement}
    {R : Nat → Option (List Oid) → Option α → Prop} (named : s.baseName.isUnnamed = false)
    (ordered : s.shapes.Ordered) (positive : 0 < s.rows)
    (each : ∀ rows, 0 < rows → R rows (s.preparedAt rows) (kept (s.baseName.ofRows rows).text))
    {types : Option (List Oid)} {now : Option α} (current : R s.rows types now) {rows : Nat} (above : 0 < rows) :
    R rows ((s.setPrepared types).preparedAt rows)
      (Function.update kept s.name.text now (s.baseName.ofRows rows).text) := by
  rw [preparedAt_setPrepared named ordered]
  by_cases here : rows = s.rows
  · subst here
    rw [if_pos rfl, show (s.baseName.ofRows s.rows).text = s.name.text from rfl, Function.update_self]
    exact current
  · have other : (s.baseName.ofRows rows).text ≠ s.name.text :=
      fun equal => here (text_ofRows_inj named above positive equal)
    rw [if_neg here, Function.update_of_ne other]
    exact each rows above

theorem agrees_setPrepared {held : Holdings} {s : BatchedStatement} (agrees : s.Agrees held)
    {types : Option (List Oid)} {now : Option Held} (reflects : Reflects (String.ofList s.sql) types now) :
    (s.setPrepared types).Agrees (Function.update held s.name.text now) := by
  have same := eq_of_bare (bare_setPrepared types s)
  constructor
  · exact agrees.sound.setPrepared types
  · rw [same.2.1]
    intro named rows positive
    rw [sqlOf_of_bare (bare_setPrepared types s)]
    exact forall_rows_setPrepared (R := fun rows recorded now => Reflects (s.sqlOf rows) recorded now) named
      agrees.sound.ordered agrees.sound.positive (agrees.named named) reflects positive
  · rw [same.2.1]
    intro unnamed
    exact shapes_setPrepared_of_unnamed unnamed (agrees.unnamed unnamed) types

theorem agrees_setTypes {held : Holdings} {s : BatchedStatement} (agrees : s.Agrees held)
    {statement : Held} (found : held s.name.text = some statement)
    (length : statement.types.length = s.fragments.placeholderCount) :
    (s.setTypes statement.types).Agrees held := by
  rw [agrees.sound.placeholderCount] at length
  refine ⟨agrees.sound.setTypes length, fun named rows positive => ?_, fun unnamed => ?_⟩
  · change Reflects (s.sqlOf rows) ((s.setTypes statement.types).preparedAt rows)
      (held (s.baseName.ofRows rows).text)
    have reflects := agrees.named named rows positive
    rw [preparedAt_setTypes]
    by_cases here : rows = s.rows
    · subst here
      rw [show held (s.baseName.ofRows s.rows).text = some statement from found] at reflects ⊢
      rw [if_pos rfl]
      exact reflects.fill
    · rw [if_neg here]
      exact reflects
  · rw [shapes_setTypes, agrees.unnamed unnamed]
    rfl

theorem agrees_setFields {held : Holdings} {s : BatchedStatement} (agrees : s.Agrees held)
    (fields : List Field) : (s.setFields fields).Agrees held := by
  have same := eq_of_bare (bare_setFields fields s)
  constructor
  · exact agrees.sound.setFields fields
  · rw [same.2.1]
    intro named rows positive
    rw [sqlOf_of_bare (bare_setFields fields s), preparedAt_setFields agrees.sound.ordered]
    exact agrees.named named rows positive
  · rw [same.2.1]
    intro unnamed
    exact shapes_setFields_of_unnamed unnamed (agrees.unnamed unnamed) fields

instance : Tracked BatchedStatement where
  bare := bare
  Owns := Owns
  Agrees := Agrees
  bare_setPrepared := bare_setPrepared
  bare_setTypes _ _ := rfl
  bare_setFields := bare_setFields
  name_bare _ := rfl
  sql_bare _ := rfl
  fragments_bare _ := rfl
  owns_bare _ := rfl
  owns_name s named := by
    rw [show Descriptor.name s = s.baseName.ofRows s.rows from rfl] at named ⊢
    rw [StatementName.isUnnamed_ofRows] at named
    cases rows : s.rows with
    | zero => exact ⟨named, 1, Nat.one_pos, by simp [StatementName.ofRows]⟩
    | succ n => exact ⟨named, n + 1, Nat.succ_pos n, rfl⟩
  not_owns_unnamed s owns := by
    obtain ⟨named, rows, -, empty⟩ := owns
    have unnamed := (StatementName.isUnnamed_iff (s.baseName.ofRows rows)).2 empty.symm
    rw [StatementName.isUnnamed_ofRows, named] at unnamed
    cases unnamed
  agrees_frame agrees same := by
    refine ⟨agrees.sound, fun named rows positive => ?_, agrees.unnamed⟩
    rw [same _ ⟨named, rows, positive, rfl⟩]
    exact agrees.named named rows positive
  agrees_length agrees := agrees.sound.types.trans agrees.sound.placeholderCount.symm
  agrees_unnamed {held s} agrees unnamed := by
    rw [show Descriptor.name s = s.baseName.ofRows s.rows from rfl, StatementName.isUnnamed_ofRows] at unnamed
    change ((s.shapes.at? s.rows).getD .unknown).prepared = none
    rw [agrees.unnamed unnamed]
    rfl
  agrees_name {held s} agrees named := by
    rw [show Descriptor.name s = s.baseName.ofRows s.rows from rfl, StatementName.isUnnamed_ofRows] at named
    exact agrees.named named s.rows agrees.sound.positive
  agrees_close agrees := agrees_setPrepared agrees .missing
  agrees_parse agrees resolves := agrees_setPrepared agrees (.held resolves)
  agrees_types agrees found length := agrees_setTypes agrees found length
  agrees_fields agrees := agrees_setFields agrees _

theorem Agrees.of_shapes {held : Holdings} {s t : BatchedStatement} (agrees : s.Agrees held)
    (sound : t.Sound) (base : t.base = s.base) (baseName : t.baseName = s.baseName)
    (shapes : t.shapes = s.shapes) : t.Agrees held := by
  refine ⟨sound, fun named rows positive => ?_, fun unnamed => ?_⟩
  · rw [baseName] at named ⊢
    rw [sqlOf, arity, base, preparedAt, shapes]
    exact agrees.named named rows positive
  · rw [baseName] at unnamed
    rw [shapes]
    exact agrees.unnamed unnamed

theorem Sound.reshape {s : BatchedStatement} (sound : s.Sound) {rows : Nat} (positive : 0 < rows) :
    (s.reshape rows).Sound := by
  refine ⟨sound.marks, positive, sound.template, ?_, sound.ordered⟩
  change (List.replicate rows s.template).flatten.length = s.arity * rows
  simp [sound.template, Nat.mul_comm]

theorem Sound.reset {s : BatchedStatement} (sound : s.Sound) : s.reset.Sound := by
  have dropped : ({ s with pending := none } : BatchedStatement).Sound :=
    ⟨sound.marks, sound.positive, sound.template, sound.types, sound.ordered⟩
  unfold BatchedStatement.reset
  dsimp only
  split
  · exact dropped
  · exact dropped.reshape Nat.one_pos

theorem reset_same (s : BatchedStatement) :
    s.reset.base = s.base ∧ s.reset.baseName = s.baseName ∧ s.reset.shapes = s.shapes := by
  unfold BatchedStatement.reset
  dsimp only
  split <;> exact ⟨rfl, rfl, rfl⟩

theorem reset_single (s : BatchedStatement) :
    s.reset.rows = 1 ∧ s.reset.pending = none ∧ s.reset.maxRows = s.maxRows := by
  unfold BatchedStatement.reset
  dsimp only
  split
  · rename_i single
    exact ⟨single, rfl, rfl⟩
  · exact ⟨rfl, rfl, rfl⟩

theorem Agrees.reset {held : Holdings} {s : BatchedStatement} (agrees : s.Agrees held) :
    s.reset.Agrees held := by
  obtain ⟨base, baseName, shapes⟩ := s.reset_same
  exact agrees.of_shapes agrees.sound.reset base baseName shapes

end BatchedStatement

/-- The types of a statement are the ones that were set last. -/
class KeepsTypes (σ : Type) [Descriptor σ] : Prop where
  types_setPrepared : ∀ (types : Option (List Oid)) (s : σ),
    Descriptor.types (Descriptor.setPrepared types s) = Descriptor.types s
  types_setTypes : ∀ (types : List Oid) (s : σ), Descriptor.types (Descriptor.setTypes types s) = types
  types_setFields : ∀ (fields : List Field) (s : σ),
    Descriptor.types (Descriptor.setFields fields s) = Descriptor.types s

instance : KeepsTypes Statement where
  types_setPrepared types s := by
    change (s.setPrepared types).types = s.types
    unfold Statement.setPrepared
    split <;> rfl
  types_setTypes _ _ := rfl
  types_setFields _ _ := rfl

instance : KeepsTypes BatchedStatement where
  types_setPrepared types s := by
    obtain ⟨shapes, same⟩ := BatchedStatement.setPrepared_eq types s
    change (s.setPrepared types).types = s.types
    rw [same]
  types_setTypes _ _ := rfl
  types_setFields fields s := by
    obtain ⟨shapes, same⟩ := BatchedStatement.setFields_eq fields s
    change (s.setFields fields).types = s.types
    rw [same]

end ExtendedQuery
