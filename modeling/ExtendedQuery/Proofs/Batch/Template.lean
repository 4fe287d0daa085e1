import ExtendedQuery.Proofs.Batch.Operations

/-!
# The template of an insert

The types of one row are collected from what the server reports of any number of rows: what a report says of a
slot of the template stands in the column of the slot (`Oid.column`), once for each row. A slot keeps the first
type that any report has specified for it, and an insert that takes another number of rows takes the types of the
template for each of them (`template_first_specified`).
-/

namespace ExtendedQuery

/-! ## The first type that is specified -/

namespace Oid

def firstSpecified (types : List Oid) : Oid := (types.find? (· ≠ unspecified)).getD unspecified

def column (arity slot : Nat) (types : List Oid) : List Oid :=
  (types.zipIdx.filter fun entry => entry.2 % arity = slot).map (·.1)

theorem orElse_of_specified {known : Oid} (specified : known ≠ unspecified) (found : Oid) :
    orElse known found = known := if_neg specified

theorem orElse_unspecified (known : Oid) : orElse known unspecified = known := by
  unfold orElse
  split
  next same => exact same.symm
  next => rfl

theorem orElse_assoc (a b c : Oid) : orElse (orElse a b) c = orElse a (orElse b c) := by
  by_cases specified : a = unspecified
  · subst specified
    rfl
  · rw [orElse_of_specified specified, orElse_of_specified specified, orElse_of_specified specified]

theorem firstSpecified_cons (oid : Oid) (later : List Oid) :
    firstSpecified (oid :: later) = orElse oid (firstSpecified later) := by
  by_cases specified : oid = unspecified
  · simp [firstSpecified, orElse, specified]
  · simp [firstSpecified, orElse, specified]

theorem firstSpecified_append (first later : List Oid) :
    firstSpecified (first ++ later) = orElse (firstSpecified first) (firstSpecified later) := by
  induction first with
  | nil => rfl
  | cons oid first ih => rw [List.cons_append, firstSpecified_cons, firstSpecified_cons, ih, orElse_assoc]

theorem firstSpecified_toList (found : Option Oid) : firstSpecified found.toList = found.getD unspecified := by
  cases found with
  | none => rfl
  | some oid => exact (firstSpecified_cons oid []).trans (orElse_unspecified oid)

/-! ## Columns -/

theorem filter_zipIdx_eq (types : List Oid) (start slot : Nat) :
    ((types.zipIdx start).filter fun entry => entry.2 = start + slot).map (·.1) = types[slot]?.toList := by
  induction types generalizing start slot with
  | nil => rfl
  | cons oid later ih =>
    rw [List.zipIdx_cons]
    cases slot with
    | zero =>
      have none : (later.zipIdx (start + 1)).filter (fun entry => entry.2 = start + 0) = [] := by
        rw [List.filter_eq_nil_iff]
        intro entry member
        have position := List.le_snd_of_mem_zipIdx member
        rw [decide_eq_true_eq]
        omega
      rw [List.filter_cons_of_pos (by simp), none]
      rfl
    | succ slot =>
      rw [List.filter_cons_of_neg (by simp), show start + (slot + 1) = start + 1 + slot by omega, ih]
      rfl

variable {arity slot : Nat}

theorem column_of_row {row : List Oid} (short : row.length ≤ arity) :
    column arity slot row = row[slot]?.toList := by
  rw [← filter_zipIdx_eq row 0 slot, column]
  congr 1
  apply List.filter_congr
  intro entry member
  have position := List.snd_lt_of_mem_zipIdx member
  rw [Nat.mod_eq_of_lt (by omega), Nat.zero_add]

theorem column_append {row : List Oid} (length : row.length = arity) (later : List Oid) :
    column arity slot (row ++ later) = column arity slot row ++ column arity slot later := by
  have shifted : (later.zipIdx arity).filter (fun entry => entry.2 % arity = slot) =
      (later.zipIdx.filter fun entry => entry.2 % arity = slot).map (Prod.map id (· + arity)) := by
    rw [← Nat.add_zero arity, ← List.map_snd_add_zipIdx_eq_zipIdx, List.filter_map]
    simp [Function.comp_def]
  unfold column
  rw [List.zipIdx_append, List.filter_append, List.map_append, Nat.zero_add, length, shifted, List.map_map]
  rfl

theorem column_eq (types : List Oid) :
    column arity slot types = (types.take arity)[slot]?.toList ++ column arity slot (types.drop arity) := by
  rw [← column_of_row (List.length_take_le arity types)]
  rcases Nat.le_total arity types.length with long | short
  · rw [← column_append (List.length_take_of_le long), List.take_append_drop]
  · rw [List.take_of_length_le short, List.drop_of_length_le short]
    exact (List.append_nil _).symm

theorem getElem?_fill (known found : List Oid) (slot : Nat) :
    (fill known found)[slot]? = known[slot]?.map (orElse · (found[slot]?.getD unspecified)) := by
  unfold fill
  induction known generalizing found slot with
  | nil => simp
  | cons oid known ih =>
    cases found with
    | nil =>
      simp only [List.zipWith_nil_right, List.length_nil, List.drop_zero, List.nil_append, List.getElem?_nil,
        Option.getD_none, orElse_unspecified]
      exact Option.map_id'.symm
    | cons first found =>
      cases slot with
      | zero => rfl
      | succ slot => exact ih found slot

end Oid

namespace BatchedStatement

/-! ## Folding reports -/

theorem getElem?_foldTemplate {arity : Nat} (positive : 0 < arity) (template reported : List Oid) (slot : Nat) :
    (foldTemplate arity template reported)[slot]? =
      template[slot]?.map (Oid.orElse · (Oid.firstSpecified (Oid.column arity slot reported))) := by
  fun_induction foldTemplate arity template reported with
  | case1 template =>
    have nothing : Oid.firstSpecified (Oid.column arity slot []) = Oid.unspecified := rfl
    simp only [nothing, Oid.orElse_unspecified]
    exact Option.map_id'.symm
  | case2 => omega
  | case3 template oid later _ ih =>
    rw [ih, Oid.getElem?_fill, Option.map_map, Oid.column_eq (oid :: later), Oid.firstSpecified_append,
      Oid.firstSpecified_toList]
    congr 1
    funext known
    exact Oid.orElse_assoc known _ _

theorem getElem?_foldTemplates {arity : Nat} (positive : 0 < arity) (reports : List (List Oid))
    (template : List Oid) (slot : Nat) :
    (reports.foldl (foldTemplate arity) template)[slot]? =
      template[slot]?.map (Oid.orElse · (Oid.firstSpecified (reports.flatMap (Oid.column arity slot)))) := by
  induction reports generalizing template with
  | nil =>
    have nothing : Oid.firstSpecified [] = Oid.unspecified := rfl
    simp only [List.flatMap_nil, nothing, Oid.orElse_unspecified]
    exact Option.map_id'.symm
  | cons types reports ih =>
    rw [List.foldl_cons, ih, getElem?_foldTemplate positive, Option.map_map, List.flatMap_cons,
      Oid.firstSpecified_append]
    congr 1
    funext known
    exact Oid.orElse_assoc known _ _

theorem foldTemplate_zero (template reported : List Oid) : foldTemplate 0 template reported = template := by
  unfold foldTemplate
  split <;> simp

theorem foldTemplate_of_specified (arity : Nat) {template : List Oid} (known : Oid.unspecified ∉ template)
    (reported : List Oid) : foldTemplate arity template reported = template := by
  rcases Nat.eq_zero_or_pos arity with rfl | positive
  · exact foldTemplate_zero template reported
  · apply List.ext_getElem?
    intro slot
    rw [getElem?_foldTemplate positive]
    cases found : template[slot]? with
    | none => rfl
    | some oid =>
      have specified : oid ≠ Oid.unspecified := fun same => known (same ▸ List.mem_of_getElem? found)
      rw [Option.map_some, Oid.orElse_of_specified specified]

theorem length_foldTemplates (arity : Nat) (reports : List (List Oid)) (template : List Oid) :
    (reports.foldl (foldTemplate arity) template).length = template.length := by
  induction reports generalizing template with
  | nil => rfl
  | cons types reports ih => rw [List.foldl_cons, ih, length_foldTemplate]

/-! ## What one operation does to the types -/

def Operation.report? : Operation → Option (List Oid)
  | .setTypes types => some types
  | _ => none

inductive Retypes (s : BatchedStatement) : Operation → BatchedStatement → Prop
  | reported {t : BatchedStatement} {types : List Oid} : t.rows = s.rows → t.types = types →
      t.template = foldTemplate s.arity s.template types → Retypes s (.setTypes types) t
  | reshaped {t : BatchedStatement} {operation : Operation} : operation.report? = none → t.rows ≠ s.rows →
      t.types = (List.replicate t.rows t.template).flatten → t.template = s.template → Retypes s operation t
  | kept {t : BatchedStatement} {operation : Operation} : operation.report? = none → t.rows = s.rows →
      t.types = s.types → t.template = s.template → Retypes s operation t

section

variable {s t : BatchedStatement} {operation : Operation}

theorem attempt_retypes (done : s.attempt operation = .ok t) : Retypes s operation t := by
  cases operation with
  | queueRow =>
    obtain ⟨-, rfl⟩ := queueRow_eq_ok done
    exact .reshaped rfl (Nat.succ_ne_self s.rows) rfl rfl
  | addRow row =>
    obtain ⟨-, ⟨-, rfl⟩ | ⟨queued, -, -, rfl⟩⟩ := addRow_eq_ok done
    · exact .kept rfl rfl rfl rfl
    · exact .reshaped rfl (Nat.succ_ne_self s.rows) rfl rfl
  | reset =>
    cases done
    unfold reset
    dsimp only
    split
    next => exact .kept rfl rfl rfl rfl
    next several => exact .reshaped rfl (Ne.symm several) rfl rfl
  | setTypes types =>
    cases done
    exact .reported rfl rfl rfl
  | setFields fields =>
    cases done
    obtain ⟨shapes, same⟩ := setFields_eq fields s
    rw [same]
    exact .kept rfl rfl rfl rfl
  | setPrepared types =>
    cases done
    obtain ⟨shapes, same⟩ := setPrepared_eq types s
    rw [same]
    exact .kept rfl rfl rfl rfl
  | markParsed rows types =>
    cases done
    unfold markParsed
    split <;> exact .kept rfl rfl rfl rfl
  | markDescribed rows =>
    cases done
    unfold markDescribed
    split <;> exact .kept rfl rfl rfl rfl
  | close =>
    cases done
    exact .kept rfl rfl rfl rfl

end

/-! ## Histories -/

namespace History

theorem perform_retypes (h : History) (operation : Operation) :
    Retypes h.statement operation (h.perform operation).statement := by
  unfold perform
  split
  next e failed =>
    have silent : operation.report? = none := by
      cases operation with
      | setTypes types => cases failed
      | _ => rfl
    exact .kept silent rfl rfl rfl
  next t done => exact attempt_retypes done

theorem base_perform (h : History) (operation : Operation) :
    (h.perform operation).statement.base = h.statement.base := by
  unfold perform
  split
  next => rfl
  next t done => exact (attempt_changes done).base

theorem template_perform (h : History) (operation : Operation) :
    (h.perform operation).statement.template =
      operation.report?.toList.foldl (foldTemplate h.statement.arity) h.statement.template := by
  cases h.perform_retypes operation with
  | reported _ _ template => exact template
  | reshaped silent _ _ template =>
    rw [silent]
    exact template
  | kept silent _ _ template =>
    rw [silent]
    exact template

theorem template_performAll (h : History) (operations : List Operation) :
    (h.performAll operations).statement.template =
      (operations.filterMap Operation.report?).foldl (foldTemplate h.statement.arity) h.statement.template := by
  induction operations generalizing h with
  | nil => rfl
  | cons operation later ih =>
    have arity : (h.perform operation).statement.arity = h.statement.arity :=
      congrArg Sql.Fragments.placeholderCount (h.base_perform operation)
    have next := ih (h.perform operation)
    rw [arity, template_perform] at next
    change ((h.perform operation).performAll later).statement.template = _
    rw [next, List.filterMap_cons]
    cases operation.report? <;> rfl

theorem performAll_append (h : History) (first later : List Operation) :
    h.performAll (first ++ later) = (h.performAll first).performAll later := List.foldl_append

/-- The types that were reported last since the insert has had its present number of rows. -/
def latest (h : History) (before : Option (List Oid)) : List Operation → Option (List Oid)
  | [] => before
  | operation :: later =>
    let next := h.perform operation
    next.latest (if next.statement.rows = h.statement.rows then operation.report?.or before else none) later

theorem types_performAll (operations : List Operation) (h : History) (before : Option (List Oid))
    (types : h.statement.types = before.getD (List.replicate h.statement.rows h.statement.template).flatten) :
    (h.performAll operations).statement.types = (h.latest before operations).getD
      (List.replicate (h.performAll operations).statement.rows
        (h.performAll operations).statement.template).flatten := by
  -- What was reported before the history counts as long as the number of rows stays.
  induction operations generalizing h before with
  | nil => exact types
  | cons operation later ih =>
    apply ih
    cases h.perform_retypes operation with
    | reported rows same =>
      rw [if_pos rows, same]
      rfl
    | reshaped _ different same =>
      rw [if_neg different]
      exact same
    | kept silent rows same template =>
      rw [if_pos rows, silent, same, rows, template]
      exact types

end History

/-! ## The template of a history -/

section

variable {statement : Statement} {maxRows : Nat}

theorem placeholderCount_pos_of_isGrowable {fragments : Sql.Fragments} (growable : fragments.isGrowable = true) :
    0 < fragments.placeholderCount :=
  List.length_pos_iff.2 (Sql.Fragments.later_ne_nil_of_isGrowable growable)

theorem sound_ofStatement (statement : Statement) (maxRows : Nat) :
    History.Sound (ofStatement statement maxRows) ⟨ofStatement statement maxRows, some []⟩ := by
  constructor
  · exact ⟨rfl, rfl, rfl, Nat.one_pos, Nat.le_max_left _ _, .inl rfl⟩
  · rintro _ ⟨⟩
    exact ⟨rfl, rfl, rfl, rfl, rfl⟩

theorem reset_of_several {s : BatchedStatement} (several : s.rows ≠ 1) :
    s.reset = { s.reshape 1 with pending := none } := if_neg several

theorem template_kept {h : History} (positive : 0 < h.statement.arity) (later : List Operation) {slot : Nat} {oid : Oid}
    (found : h.statement.template[slot]? = some oid) (specified : oid ≠ Oid.unspecified) :
    (h.performAll later).statement.template[slot]? = some oid := by
  rw [History.template_performAll, getElem?_foldTemplates positive, found, Option.map_some,
    Oid.orElse_of_specified specified]

theorem arity_performAll (statement : Statement) (maxRows : Nat) (operations : List Operation) :
    (History.performAll ⟨ofStatement statement maxRows, some []⟩ operations).statement.arity =
      statement.fragments.placeholderCount :=
  congrArg Sql.Fragments.placeholderCount ((sound_ofStatement statement maxRows).performAll operations).grown.base

/-- A slot of the template has the first type that was specified for it, by the statement that the insert was made
of or else in all reports, whatever rows they were for, and keeps it. Whenever the insert takes another number of
rows, its types are those of the template. -/
theorem template_first_specified (growable : statement.fragments.isGrowable = true) (maxRows : Nat)
    (operations : List Operation) :
    ∃ start, new statement maxRows = .ok start ∧
      ∀ h, History.performAll ⟨start, some []⟩ operations = h →
        (h.statement.template = statement.types.zipIdx.map fun (oid, slot) =>
          Oid.firstSpecified (oid :: (operations.filterMap Operation.report?).flatMap
            (Oid.column statement.fragments.placeholderCount slot))) ∧
        (∀ (later : List Operation) (slot : Nat) (oid : Oid), h.statement.template[slot]? = some oid →
          oid ≠ Oid.unspecified → (h.performAll later).statement.template[slot]? = some oid) ∧
        (∀ t, h.statement.queueRow = .ok t → t.rows = h.statement.rows + 1 ∧
          t.template = h.statement.template ∧ t.types = (List.replicate t.rows t.template).flatten) ∧
        (h.statement.rows ≠ 1 → h.statement.reset.rows = 1 ∧
          h.statement.reset.template = h.statement.template ∧
          h.statement.reset.types = h.statement.reset.template) := by
  have positive := placeholderCount_pos_of_isGrowable growable
  refine ⟨ofStatement statement maxRows, if_pos growable, ?_⟩
  rintro h rfl
  have arity := arity_performAll statement maxRows operations
  refine ⟨?_, ?_, ?_, ?_⟩
  · rw [History.template_performAll]
    apply List.ext_getElem?
    intro slot
    change (List.foldl (foldTemplate statement.fragments.placeholderCount) statement.types _)[slot]? = _
    rw [getElem?_foldTemplates positive, List.getElem?_map, List.getElem?_zipIdx, Option.map_map]
    simp only [Function.comp_def, Oid.firstSpecified_cons, Nat.zero_add]
  · intro later slot oid found specified
    exact template_kept (arity ▸ positive) later found specified
  · intro t done
    obtain ⟨-, rfl⟩ := queueRow_eq_ok done
    exact ⟨rfl, rfl, rfl⟩
  · intro several
    rw [reset_of_several several]
    exact ⟨rfl, rfl, List.append_nil _⟩

def pairStatement : Statement := .ofFragments ⟨"INSERT INTO t VALUES (".toList, [[','], [')']]⟩ (.numbered 0)

theorem template_first_specified_rows :
    pairStatement.fragments.isGrowable = true ∧
      ∃ h : History, h.statement.rows = 2 ∧ h.statement.template = [Oid.int4, Oid.text] ∧
        h.statement.reset.types = [Oid.int4, Oid.text] := by
  have growable : pairStatement.fragments.isGrowable = true := by decide
  have made : new pairStatement 4 = .ok (ofStatement pairStatement 4) := if_pos growable
  obtain ⟨start, made', holds⟩ := template_first_specified growable 4
    [.queueRow, .setTypes [Oid.int4, Oid.unspecified, Oid.int8, Oid.text]]
  cases made.symm.trans made'
  obtain ⟨template, -, -, reset⟩ := holds _ rfl
  have columns : _ = [Oid.int4, Oid.text] := template.trans (by decide)
  have rows : 2 ≠ 1 := by decide
  obtain ⟨-, kept, types⟩ := reset rows
  exact ⟨growable, _, rfl, columns, types.trans (kept.trans columns)⟩

/-! ## Back at one row -/

/-- The types that were reported for one row last, if the insert has kept to one row since. -/
def History.standing (start : History) (operations : List Operation) : Option (List Oid) :=
  if (start.performAll operations).statement.rows = 1 then start.latest none operations else none

structure Restored (statement : Statement) (s : BatchedStatement) : Prop where
  rows : s.rows = 1
  pending : s.pending = none
  fragments : s.fragments = statement.fragments
  sql : s.sql = statement.sql
  name : s.name = statement.name

theorem GrownFrom.reset {start t : BatchedStatement} (grown : GrownFrom start t) : GrownFrom start t.reset :=
  grown.step (@attempt_changes t t.reset .reset rfl)

theorem GrownFrom.restored {t : BatchedStatement} (grown : GrownFrom (ofStatement statement maxRows) t) : Restored statement t.reset := by
  obtain ⟨rows, pending, -⟩ := t.reset_single
  have base : t.reset.base = statement.fragments := grown.reset.base
  have baseName : t.reset.baseName = statement.name := grown.reset.baseName
  constructor
  · exact rows
  · exact pending
  · rw [BatchedStatement.fragments, base, rows, Sql.Fragments.grow_one]
  · rw [BatchedStatement.sql, base, rows]
    exact List.append_nil _
  · rw [BatchedStatement.name, baseName, rows, StatementName.ofRows_one]

theorem template_reset (s : BatchedStatement) : s.reset.template = s.template := by
  unfold reset
  dsimp only
  split <;> rfl

theorem types_reset (start : History) (operations : List Operation)
    (types : start.statement.types = (List.replicate start.statement.rows start.statement.template).flatten) :
    (start.performAll operations).statement.reset.types =
      (start.standing operations).getD (start.performAll operations).statement.template := by
  have reported := History.types_performAll operations start none types
  unfold History.standing
  by_cases single : (start.performAll operations).statement.rows = 1
  · rw [if_pos single]
    rw [single, List.replicate_one, List.flatten_singleton] at reported
    rw [← reported]
    simp only [reset, single, if_pos]
  · rw [if_neg single, reset_of_several single]
    exact List.append_nil _

theorem eq_of_parts {s t : BatchedStatement} (base : t.base = s.base) (baseName : t.baseName = s.baseName)
    (maxRows : t.maxRows = s.maxRows) (rows : t.rows = s.rows) (pending : t.pending = s.pending)
    (template : t.template = s.template) (types : t.types = s.types) (shapes : t.shapes = s.shapes) :
    t = { s with fields := t.fields } := by
  cases s
  cases t
  cases base
  cases baseName
  cases maxRows
  cases rows
  cases pending
  cases template
  cases types
  cases shapes
  rfl

/-- A reset leaves a single row and what was prepared for it, and keeps the template with all types that were ever
specified. Its types are those of the template unless others were reported for one row since the insert came back
to it. -/
theorem reset_restores (growable : statement.fragments.isGrowable = true) (maxRows : Nat)
    (operations : List Operation) :
    ∃ start, new statement maxRows = .ok start ∧
      ∀ h, History.performAll ⟨start, some []⟩ operations = h →
        Restored statement h.statement.reset ∧
        h.statement.reset.template = h.statement.template ∧
        h.statement.reset.template.length = statement.types.length ∧
        (∀ (before after : List Operation) (slot : Nat) (oid : Oid), operations = before ++ after →
          (History.performAll ⟨start, some []⟩ before).statement.template[slot]? = some oid →
          oid ≠ Oid.unspecified → h.statement.reset.template[slot]? = some oid) ∧
        h.statement.reset.types =
          (History.standing ⟨start, some []⟩ operations).getD h.statement.reset.template ∧
        ∀ others h', History.performAll ⟨start, some []⟩ others = h' →
          h'.statement.template = h.statement.template → h'.statement.shapes = h.statement.shapes →
          History.standing ⟨start, some []⟩ others = History.standing ⟨start, some []⟩ operations →
          h'.statement.reset = { h.statement.reset with fields := h'.statement.reset.fields } := by
  have positive := placeholderCount_pos_of_isGrowable growable
  refine ⟨ofStatement statement maxRows, if_pos growable, ?_⟩
  have sound := sound_ofStatement statement maxRows
  have parts (operations : List Operation) := (sound.performAll operations).grown
  have types (operations : List Operation) := types_reset ⟨ofStatement statement maxRows, some []⟩ operations
    (List.append_nil _).symm
  rintro h rfl
  refine ⟨(parts operations).restored, template_reset _, ?_, ?_, ?_, ?_⟩
  · rw [template_reset, History.template_performAll, length_foldTemplates]
    rfl
  · intro before after slot oid same found specified
    rw [template_reset, same, History.performAll_append]
    have arity := arity_performAll statement maxRows before
    exact template_kept (arity ▸ positive) after found specified
  · rw [types, template_reset]
  · rintro others h' rfl template shapes standing
    have first := parts operations
    have second := parts others
    apply eq_of_parts
    · rw [second.reset.base, first.reset.base]
    · rw [second.reset.baseName, first.reset.baseName]
    · rw [second.reset.maxRows, first.reset.maxRows]
    · rw [second.restored.rows, first.restored.rows]
    · rw [second.restored.pending, first.restored.pending]
    · rw [template_reset, template_reset, template]
    · rw [types, types, standing, template]
    · rw [(reset_same _).2.2, (reset_same _).2.2, shapes]

theorem reset_restores_rows :
    pairStatement.fragments.isGrowable = true ∧
      ∃ h : History, h.statement.rows = 2 ∧ Restored pairStatement h.statement.reset ∧
        h.statement.reset.types = h.statement.reset.template := by
  have growable : pairStatement.fragments.isGrowable = true := by decide
  have made : new pairStatement 4 = .ok (ofStatement pairStatement 4) := if_pos growable
  obtain ⟨start, made', holds⟩ := reset_restores growable 4
    [.queueRow, .setTypes [Oid.int4, Oid.unspecified, Oid.int8, Oid.text]]
  cases made.symm.trans made'
  obtain ⟨restored, -, -, -, types, -⟩ := holds _ rfl
  exact ⟨growable, _, rfl, restored, types⟩

/-- The types were known, but the last report for one row has left them open. -/
theorem reset_restores_forgotten :
    ∃ start, new pairStatement 4 = .ok start ∧
      ∃ h, History.performAll ⟨start, some []⟩
          [.setTypes [Oid.int4, Oid.text], .setTypes [Oid.unspecified, Oid.unspecified]] = h ∧
        h.statement.reset.template = [Oid.int4, Oid.text] ∧
        h.statement.reset.types = [Oid.unspecified, Oid.unspecified] := by
  have growable : pairStatement.fragments.isGrowable = true := by decide
  refine ⟨ofStatement pairStatement 4, if_pos growable, _, rfl, ?_, rfl⟩
  rw [template_reset, History.template_performAll]
  cbv

end

end BatchedStatement

end ExtendedQuery
