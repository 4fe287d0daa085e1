import ExtendedQuery.Proofs.Parameter.Concatenation

/-!
# Contents of parameters

What a parameter holds is decided by the calls that have bound it (`ParameterList.History`), and neither growing,
merging nor resolving types changes it. A parameter shows its contents in its slot and in its format
(`Parameter.Shows`); its direction tells an output that was never bound. Main statement:
`ParameterList.History.shows`.
-/

namespace ExtendedQuery

inductive Content where
  | unbound
  | null (format : Format)
  | value (value : Value)
  deriving DecidableEq, Repr

namespace Content

def slot : Content → Slot
  | .unbound => .unbound
  | .null _ => .null
  | .value v => .value v

def format : Content → Format
  | .value (.binary _) | .null .binary => .binary
  | _ => .text

def bytes? : Content → Option Bytes
  | .value (.text text) => some (Bytes.ofString text)
  | .value (.binary bytes) => some bytes
  | _ => none

def growTo (contents : List Content) (count : Nat) : List Content :=
  contents ++ List.replicate (count - contents.length) unbound

def changeAt (index : Nat) (change : Content → Content) (contents : List Content) : List Content :=
  (growTo contents index).modify (index - 1) change

theorem format_slot (v : Value) : (value v).format = v.format := by cases v <;> rfl

end Content

/-- An output that was never bound is a NULL; a parameter that was bound stays bound as it is. -/
def ListOperation.content (op : ListOperation) (content : Content) : Content :=
  match op, content with
  | .bind value _, _ | .bindEncoded ⟨some value, _⟩, _ => .value value
  | .bindEncoded ⟨none, _⟩, _ | .bindNull _, _ | .markOutput, .unbound => .null .text
  | .markOutput, content | .setResolvedType _, content => content

namespace ParameterList

/-- Lists with what their parameters were last bound to. -/
inductive History : ParameterList → List Content → Prop
  | ofCount (count : Nat) : History (ofCount count) (List.replicate count .unbound)
  | operation {list list' : ParameterList} {contents : List Content} (op : ListOperation) (index : Nat) :
      History list contents → op.onList list index = .ok list' →
      History list' (Content.changeAt index op.content contents)
  | bindNullFor {list list' : ParameterList} {contents : List Content} (index : Nat) (oid : Oid)
      (caps : Capabilities) : History list contents → list.bindNullFor index oid caps = .ok list' →
      History list' (Content.changeAt index
        (fun _ => .null (if caps.sendsBinary oid then .binary else .text)) contents)
  | resolve {list : ParameterList} {contents : List Content} (found : List Oid) : History list contents →
      History (list.resolve found) contents
  | append {list other : ParameterList} {contents others : List Content} : History list contents →
      History other others → History (list ++ other) (contents ++ others)
  | resize {list : ParameterList} {contents : List Content} (count : Nat) : History list contents →
      History (list.resize count) ((Content.growTo contents count).take count)

end ParameterList

structure Parameter.Shows (p : Parameter) (content : Content) : Prop where
  slot : p.slot = content.slot
  format : p.format = content.format
  unset : p.direction = .unset ↔ content = .unbound
  output : p.direction = .output → content = .null .text

theorem Direction.withInput_cases (d : Direction) : d.withInput = .input ∨ d.withInput = .both := by
  cases d <;> simp [withInput]

namespace Parameter

variable {p : Parameter} {content : Content}

theorem Shows.bytes? (shown : p.Shows content) : p.bytes? = content.bytes? := by
  rw [Parameter.bytes?, shown.slot]
  rcases content with _ | _ | (_ | _) <;> rfl

theorem Shows.isBound (shown : p.Shows content) : p.isBound = true ↔ content ≠ .unbound := by
  rw [Parameter.isBound, shown.slot]
  cases content <;> simp [Content.slot]

theorem unbound_shows : unbound.Shows .unbound := ⟨rfl, rfl, by simp [unbound], nofun⟩

theorem shows_of_input {content : Content} (slot : p.slot = content.slot) (format : p.format = content.format)
    {d : Direction} (input : p.direction = d.withInput) (bound : content ≠ .unbound) : p.Shows content := by
  constructor
  · exact slot
  · exact format
  · rcases d.withInput_cases with same | same <;> simp [input, same, bound]
  · rcases d.withInput_cases with same | same <;> simp [input, same]

theorem bind_shows (p : Parameter) (value : Value) (oid : Oid) : (p.bind value oid).Shows (.value value) :=
  shows_of_input rfl (Content.format_slot value).symm rfl nofun

theorem bindNull_shows (p : Parameter) (oid : Oid) (format : Format) :
    (p.bindNull oid format).Shows (.null format) :=
  shows_of_input rfl (by cases format <;> rfl) rfl nofun

theorem Shows.markOutput (shown : p.Shows content) :
    p.markOutput.Shows (ListOperation.markOutput.content content) := by
  obtain ⟨slot, oid, direction, format⟩ := p
  cases direction with
  | unset =>
    obtain rfl := shown.unset.1 rfl
    exact ⟨rfl, rfl, by simp [Parameter.markOutput, Direction.withOutput, ListOperation.content], fun _ => rfl⟩
  | output =>
    obtain rfl := shown.output rfl
    exact ⟨rfl, rfl, by simp [Parameter.markOutput, Direction.withOutput, ListOperation.content], fun _ => rfl⟩
  | input | both =>
    have bound : content ≠ .unbound := fun same => nomatch shown.unset.2 same
    have same : ListOperation.markOutput.content content = content := by
      cases content with
      | unbound => exact absurd rfl bound
      | _ => rfl
    rw [same]
    exact ⟨shown.slot, shown.format, by simp [Parameter.markOutput, Direction.withOutput, bound], nofun⟩

theorem Shows.resolve (shown : p.Shows content) (found : Oid) : (p.resolve found).Shows content :=
  ⟨shown.slot, shown.format, shown.unset, shown.output⟩

theorem Shows.change (shown : p.Shows content) {op : ListOperation} {index : Nat} {p' : Parameter}
    (done : op.change index p = .ok p') : p'.Shows (op.content content) := by
  cases op with
  | bind value oid =>
    cases done
    exact bind_shows p value oid
  | bindEncoded encoded =>
    obtain ⟨value, oid⟩ := encoded
    cases value with
    | none =>
      cases done
      exact bindNull_shows p oid .text
    | some value =>
      cases done
      exact bind_shows p value oid
  | bindNull oid =>
    cases done
    exact bindNull_shows p oid .text
  | markOutput =>
    cases done
    exact shown.markOutput
  | setResolvedType found =>
    unfold ListOperation.change at done
    dsimp only at done
    split at done
    · cases done
      exact shown.resolve found
    · cases done

end Parameter

theorem map_eq_ok {α β ε : Type} {result : Except ε α} {f : α → β} {b : β} :
    result.map f = .ok b ↔ ∃ a, result = .ok a ∧ f a = b := by
  cases result <;> simp [Except.map]

theorem getD_append_fresh {α : Type} (list : List α) (count i : Nat) (fresh : α) :
    (list ++ List.replicate count fresh).getD i fresh = list.getD i fresh := by
  by_cases inside : i < list.length
  · rw [List.getD_append _ _ _ _ inside]
  · rw [List.getD_append_right _ _ _ _ (Nat.not_lt.1 inside), List.getD_eq_default list _ (Nat.not_lt.1 inside),
      List.getD, List.getElem?_replicate]
    split <;> rfl

theorem forall₂_modify {α β : Type} {R : α → β → Prop} {as : List α} {bs : List β} (related : List.Forall₂ R as bs)
    {f : β → β} {a' : α} {i : Nat} (d : α) (step : ∀ b, R (as.getD i d) b → R a' (f b)) :
    List.Forall₂ R (as.set i a') (bs.modify i f) := by
  induction related generalizing i with
  | nil => cases i <;> exact .nil
  | cons first later ih =>
    cases i with
    | zero => exact .cons (step _ first) later
    | succ i => exact .cons first (ih step)

namespace ParameterList

abbrev Shows (list : ParameterList) (contents : List Content) : Prop := List.Forall₂ Parameter.Shows list contents

variable {list : ParameterList} {contents : List Content}

theorem ofCount_shows (count : Nat) : (ofCount count).Shows (List.replicate count .unbound) := by
  induction count with
  | zero => exact .nil
  | succ count ih => exact .cons Parameter.unbound_shows ih

theorem Shows.growTo (shown : list.Shows contents) (count : Nat) :
    (list.growTo count).Shows (Content.growTo contents count) := by
  rw [ParameterList.growTo, shown.length_eq]
  exact List.rel_append shown (ofCount_shows _)

theorem Shows.update (shown : list.Shows contents) {list' : ParameterList} {index : Nat}
    {change : Parameter → Except BindError Parameter} {f : Content → Content}
    (step : ∀ p p' content, p.Shows content → change p = .ok p' → p'.Shows (f content))
    (done : list.update index change = .ok list') : list'.Shows (Content.changeAt index f contents) := by
  cases index with
  | zero => cases done
  | succ i =>
    simp only [ParameterList.update] at done
    split at done
    · cases done
    · obtain ⟨p, changed, rfl⟩ := map_eq_ok.1 done
      apply forall₂_modify (shown.growTo (i + 1)) .unbound
      intro content before
      exact step _ _ _ before changed

theorem Shows.resolve (shown : list.Shows contents) (found : List Oid) : (list.resolve found).Shows contents := by
  induction shown generalizing found with
  | nil => cases found <;> exact .nil
  | cons first later ih =>
    cases found with
    | nil => exact .cons first later
    | cons oid found => exact .cons (first.resolve oid) (ih found)

theorem History.shows (history : list.History contents) : list.Shows contents := by
  induction history with
  | ofCount count => exact ofCount_shows count
  | operation op index _ done ih =>
    rw [op.onList_eq] at done
    exact ih.update (fun p p' content shown changed => shown.change changed) done
  | bindNullFor _ _ _ _ done ih =>
    apply ih.update _ done
    intro p p' content _ changed
    cases changed
    exact Parameter.bindNull_shows p _ _
  | resolve found _ ih => exact ih.resolve found
  | append _ _ ih ih' => exact List.rel_append ih ih'
  | resize count _ ih => exact List.forall₂_take count (ih.growTo count)

theorem History.length (history : list.History contents) : list.length = contents.length := history.shows.length_eq

theorem Shows.map_eq {α : Type} (shown : list.Shows contents) {f : Parameter → α} {g : Content → α}
    (same : ∀ p content, p.Shows content → f p = g content) : list.map f = contents.map g := by
  induction shown with
  | nil => rfl
  | cons first _ ih => rw [List.map_cons, List.map_cons, same _ _ first, ih]

theorem History.formats (history : list.History contents) : list.formats = contents.map Content.format :=
  history.shows.map_eq fun _ _ shown => shown.format

theorem History.values (history : list.History contents) : list.map (·.bytes?) = contents.map Content.bytes? :=
  history.shows.map_eq fun _ _ shown => shown.bytes?

end ParameterList

def ListOperation.onParameters (op : ListOperation) (ps : Parameters) (index : Nat) : Except BindError Parameters :=
  match op with
  | .bind value oid => ps.bind index value oid
  | .bindEncoded encoded => ps.bindEncoded index encoded
  | .bindNull oid => ps.bindNull index oid
  | .markOutput => ps.markOutput index
  | .setResolvedType found => ps.setResolvedType index found

theorem ListOperation.onParameters_single (op : ListOperation) (list : ParameterList) (index : Nat) :
    op.onParameters (.single list) index = (op.onList list index).map .single := by cases op <;> rfl

theorem ListOperation.onParameters_composite (op : ListOperation) (lists : CompositeParameters) (index : Nat) :
    op.onParameters (.composite lists) index =
      ((RoutedLists.ofLists lists).update index op.onList).map .ofRouted := by
  rw [← op.onLists_eq]
  cases op <;> rfl

namespace Parameters

inductive History : Parameters → List (List Content) → Prop
  | single {list : ParameterList} {contents : List Content} : list.History contents → History (.single list) [contents]
  | composite {lists : CompositeParameters} {contents : List (List Content)} :
      List.Forall₂ ParameterList.History lists contents → History (.composite lists) contents

def locate (index : Nat) : Parameters → Except BindError (Nat × Nat)
  | .single _ => .ok (0, index)
  | .composite lists => CompositeParameters.locate lists index

variable {ps ps' other : Parameters} {contents others : List (List Content)}

theorem History.operation (history : ps.History contents) {op : ListOperation} {index : Nat}
    (done : op.onParameters ps index = .ok ps') : ∃ k j, ps.locate index = .ok (k, j) ∧
      ps'.History (contents.modify k (Content.changeAt j op.content)) := by
  cases history with
  | @single list contents history =>
    rw [op.onParameters_single] at done
    obtain ⟨list', result, rfl⟩ := map_eq_ok.1 done
    exact ⟨0, index, rfl, .single (history.operation _ _ result)⟩
  | @composite lists contents histories =>
    rw [op.onParameters_composite] at done
    cases located : (RoutedLists.ofLists lists).locate index with
    | error e =>
      rw [RoutedLists.update, located] at done
      cases done
    | ok place =>
      rw [RoutedLists.update_of_place located, RoutedLists.lists_ofLists] at done
      obtain ⟨r, updated, rfl⟩ := map_eq_ok.1 done
      obtain ⟨list', result, rfl⟩ := map_eq_ok.1 updated
      refine ⟨place.1, place.2, located, .composite (forall₂_modify histories [] ?_)⟩
      intro contents history
      exact history.operation _ _ result

theorem History.merge (history : ps.History contents) (added : other.History others)
    (merged : ps.merge other = .ok ps') : ps'.History [contents.flatten ++ others.flatten] := by
  cases history with
  | composite _ => cases merged
  | @single list contents history =>
    cases added with
    | composite _ => cases merged
    | @single more others added =>
      rw [Parameters.merge, ParameterList.merge] at merged
      split at merged
      · cases merged
      · cases merged
        simpa using History.single (history.append added)

theorem History.replace (history : other.History others) (replaced : ps.replace other = .ok ps') :
    ps'.History others := by
  cases history with
  | single history =>
    cases ps with
    | single list =>
      cases replaced
      exact .single history
    | composite lists => cases replaced
  | composite histories =>
    cases ps with
    | single list => cases replaced
    | composite lists =>
      rw [Parameters.replace, RoutedLists.replace] at replaced
      split at replaced
      · cases replaced
      · cases replaced
        exact .composite histories

theorem History.clear (history : ps.History contents) :
    ps.clear.History (contents.map fun contents => List.replicate contents.length .unbound) := by
  have cleared {list : ParameterList} {contents : List Content} (history : list.History contents) :
      list.clear.History (List.replicate contents.length .unbound) := by
    rw [ParameterList.clear, history.length]
    exact .ofCount _
  cases history with
  | single history => exact .single (cleared history)
  | composite histories =>
    apply History.composite
    change List.Forall₂ _ (List.map _ _) _
    rw [List.forall₂_map_left_iff, List.forall₂_map_right_iff]
    exact histories.imp fun _ _ => cleared

end Parameters

end ExtendedQuery
