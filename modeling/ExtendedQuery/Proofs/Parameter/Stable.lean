import ExtendedQuery.Proofs.Parameter.Remembered

/-!
# What calls do to parameters

Slot, type, direction and format of a parameter fit together after any calls, and a parameter is written as what
it holds now. A type that is specified stays until a call gives another one (`CachedList.Call.Retypes`), and a
call that fails changes no parameter. Main statement: `CachedList.Reached.stable`.
-/

namespace ExtendedQuery

namespace CachedList

/-- The calls that can give another type to a parameter `p` that has the index. -/
inductive Call.Retypes (index : Nat) (p : Parameter) : Call → Prop
  | bind (value : Value) (oid : Oid) : Retypes index p (.alter (.operation (.bind value oid)) index)
  | bindValue {encoded : Encoded} : encoded.value ≠ none ∨ encoded.oid ≠ Oid.unspecified →
      Retypes index p (.alter (.operation (.bindEncoded encoded)) index)
  | bindNull {oid : Oid} : oid ≠ Oid.unspecified → Retypes index p (.alter (.operation (.bindNull oid)) index)
  | bindNullFor {oid : Oid} (caps : Capabilities) : oid ≠ Oid.unspecified →
      Retypes index p (.alter (.bindNullFor oid caps) index)
  | markOutput : p.direction = .unset → Retypes index p (.alter (.operation .markOutput) index)
  | clear : Retypes index p .clear
  | replace (other : CachedList) : Retypes index p (.replace other)

theorem oid_bindNull {p : Parameter} {oid : Oid} {format : Format} (other : (p.bindNull oid format).oid ≠ p.oid) :
    oid ≠ Oid.unspecified := by
  intro same
  exact other (if_pos same)

theorem oid_markOutput {p : Parameter} (sound : p.Sound) (other : p.markOutput.oid ≠ p.oid) :
    p.direction = .unset := by
  obtain ⟨slot, oid, direction, format⟩ := p
  cases direction with
  | unset => rfl
  | output => exact absurd (sound.output rfl).2.1.symm other
  | input | both => exact absurd rfl other

theorem retypes_of_makes {change : Change} {p p' : Parameter} (makes : Change.Makes p change p') (sound : p.Sound)
    (specified : p.oid ≠ Oid.unspecified) (other : p'.oid ≠ p.oid) (index : Nat) :
    Call.Retypes index p (.alter change index) := by
  cases makes with
  | bind value oid => exact .bind value oid
  | bindValue value oid => exact .bindValue (.inl (Option.some_ne_none value))
  | bindNone oid => exact .bindValue (.inr (oid_bindNull other))
  | bindNull oid => exact .bindNull (oid_bindNull other)
  | bindNullFor oid caps => exact .bindNullFor caps (oid_bindNull other)
  | markOutput => exact .markOutput (oid_markOutput sound other)
  | resolve => exact absurd (if_neg specified) other

end CachedList

namespace ParameterList

variable {list list' : ParameterList} {i : Nat} {p : Parameter}

theorem getElem?_growTo (held : list[i]? = some p) (count : Nat) : (list.growTo count)[i]? = some p := by
  obtain ⟨inside, -⟩ := List.getElem?_eq_some_iff.1 held
  rw [growTo, List.getElem?_append_left inside, held]

theorem getElem?_update {index : Nat} {change : Parameter → Except BindError Parameter}
    (done : list.update index change = .ok list') (held : list[i]? = some p) :
    list'[i]? = some p ∨ index = i + 1 ∧ ∃ p', change p = .ok p' ∧ list'[i]? = some p' := by
  cases index with
  | zero => cases done
  | succ j =>
    simp only [update] at done
    split at done
    · cases done
    · have grown := getElem?_growTo held (j + 1)
      obtain ⟨p', changed, rfl⟩ := map_eq_ok.1 done
      by_cases same : j = i
      · subst same
        rw [List.getD, grown] at changed
        exact .inr ⟨rfl, p', changed, by rw [List.getElem?_set_self', grown]; rfl⟩
      · exact .inl (by rw [List.getElem?_set_ne same, grown])

theorem getD_growTo (list : ParameterList) (count i : Nat) :
    (list.growTo count).getD i .unbound = list.getD i .unbound :=
  getD_append_fresh list (count - list.length) i .unbound

theorem setResolvedType_error_iff {found : Oid} (few : i + 1 ≤ maxParameters) :
    (∃ e, list.setResolvedType (i + 1) found = .error e) ↔
      ∃ p, list[i]? = some p ∧ p.oid ≠ Oid.unspecified ∧ p.oid ≠ found := by
  rw [setResolvedType, update, if_neg (Nat.not_lt.2 few)]
  dsimp only
  rw [getD_growTo, List.getD]
  cases list[i]? with
  | none => simp [Parameter.unbound, Except.map]
  | some p =>
    dsimp only [Option.getD_some]
    split
    · rename_i accepts
      simp only [Except.map, reduceCtorEq, exists_false, false_iff, Option.some.injEq, exists_eq_left', not_and,
        not_not]
      exact accepts.resolve_left
    · rename_i refuses
      rw [not_or] at refuses
      simpa [Except.map] using refuses

end ParameterList

namespace CachedList

variable {list : CachedList} {call : Call} {i : Nat}

theorem retypes_of_onPlain {list list' : ParameterList} {p p' : Parameter} (sound : p.Sound)
    (done : call.onPlain list = .ok list') (held : list[i]? = some p) (holds : list'[i]? = some p')
    (specified : p.oid ≠ Oid.unspecified) (other : p'.oid ≠ p.oid) : call.Retypes (i + 1) p := by
  have changes : list'[i]? ≠ some p := by
    intro same
    rw [holds] at same
    cases same
    exact other rfl
  cases call with
  | alter change index =>
    rw [Call.onPlain, change.onList_eq] at done
    rcases ParameterList.getElem?_update done held with same | ⟨rfl, q, applied, same⟩
    · exact absurd same changes
    · rw [holds] at same
      cases same
      exact retypes_of_makes (Change.makes_of_apply applied) sound specified other (i + 1)
  | clear => exact .clear
  | replace other => exact .replace other
  | merge other =>
    rw [Call.onPlain, ParameterList.merge] at done
    split at done
    · cases done
    · cases done
      rw [List.getElem?_append_left (List.getElem?_eq_some_iff.1 held).1] at changes
      exact absurd held changes
  | resize count =>
    cases done
    rw [ParameterList.resize, List.getElem?_take] at holds changes
    split at holds
    · rename_i below
      rw [if_pos below] at changes
      exact absurd (ParameterList.getElem?_growTo held count) changes
    · cases holds
  | wireLength | serialize | wireValue | wireValues =>
    obtain ⟨-, -, rfl⟩ := map_eq_ok.1 done
    exact absurd held changes

theorem retypes_of_run (sound : list.Sound) (others : ∀ other ∈ call.other?, other.Sound) {c c' : CachedParameter}
    (held : list[i]? = some c) (holds : (call.run list).2[i]? = some c')
    (specified : c.parameter.oid ≠ Oid.unspecified) (other : c'.parameter.oid ≠ c.parameter.oid) :
    call.Retypes (i + 1) c.parameter := by
  have own : list.plain[i]? = some c.parameter := by rw [plain_getElem?, held]; rfl
  have result := (run_agrees sound call others).plain
  have later : (call.run list).2.plain[i]? = some c'.parameter := by rw [plain_getElem?, holds]; rfl
  rw [result] at later
  cases done : call.onPlain list.plain with
  | error e =>
    rw [done] at later
    have same := Option.some.inj (own.symm.trans later)
    rw [same] at other
    exact absurd rfl other
  | ok list' =>
    rw [done] at later
    exact retypes_of_onPlain (sound c (List.mem_of_getElem? held)).parameter done own later specified other

theorem written_of_held (sound : list.Sound) {c : CachedParameter} {bytes : Option Bytes} (held : list[i]? = some c)
    (wire : c.parameter.wireValue (i + 1) = .ok bytes) :
    (list.wireLength (i + 1)).1 = .ok (announcedLength bytes) ∧ (list.serialize (i + 1)).1 = .ok (bytes.getD []) ∧
      (list.wireValue (i + 1)).1 = .ok (.ofBytes bytes) := by
  have own : ParameterList.wireValue list.plain (i + 1) = .ok bytes := by
    rw [ParameterList.wireValue, ParameterList.get, plain_getElem?, held]
    exact wire
  rw [(sound.wireLength (i + 1)).result, (sound.serialize (i + 1)).result, (sound.wireValue (i + 1)).result,
    ParameterList.wireLength, ParameterList.serialize, own]
  exact ⟨rfl, rfl, rfl⟩

theorem wireValues_of_short (sound : list.Sound) (short : list.plain.Short) :
    list.wireValues.1 = list.plain.checkAllSet.map fun _ => list.plain.map fun p => .ofBytes p.bytes? := by
  rw [sound.wireValues.result]
  cases checked : list.plain.checkAllSet with
  | ok =>
    rw [wireValues_eq (checkAllSet_ok.1 checked) short]
    simp [Except.map]
  | error e =>
    obtain ⟨index, first, rfl⟩ := ParameterList.checkAllSet_error_iff.1 checked
    rw [ParameterList.wireValues_of_firstUnbound first short]
    rfl

structure Stable (list : CachedList) : Prop where
  slots : ∀ c ∈ list, c.parameter.Sound
  value : ∀ i (c : CachedParameter) v, list[i]? = some c → c.parameter.slot = .value v →
    v.bytes.length ≤ Parameter.maxValueLength →
    (list.wireLength (i + 1)).1 = .ok v.bytes.length ∧ (list.serialize (i + 1)).1 = .ok v.bytes ∧
      (list.wireValue (i + 1)).1 = .ok ⟨v.bytes.length, v.bytes⟩
  null : ∀ i (c : CachedParameter), list[i]? = some c → c.parameter.slot = .null →
    (list.wireLength (i + 1)).1 = .ok (-1) ∧ (list.serialize (i + 1)).1 = .ok [] ∧
      (list.wireValue (i + 1)).1 = .ok ⟨-1, []⟩
  values : list.plain.Short → list.wireValues.1 =
    list.plain.checkAllSet.map fun _ => list.plain.map fun p => .ofBytes p.bytes?
  missing : ∀ e, list.plain.checkAllSet = .error e ↔
    ∃ index, list.plain.FirstUnbound index ∧ e = .unbound index
  typed : ∀ (call : Call) i (c c' : CachedParameter), (∀ other ∈ call.other?, Reached other) → list[i]? = some c →
    (call.run list).2[i]? = some c' → c.parameter.oid ≠ Oid.unspecified → c'.parameter.oid ≠ c.parameter.oid →
    call.Retypes (i + 1) c.parameter
  resolved : ∀ i found, i + 1 ≤ maxParameters →
    ((∃ e, (Call.run (.alter (.operation (.setResolvedType found)) (i + 1)) list).1 = .error e) ↔
      ∃ c : CachedParameter, list[i]? = some c ∧ c.parameter.oid ≠ Oid.unspecified ∧ c.parameter.oid ≠ found)
  refused : ∀ (call : Call) e, (∀ other ∈ call.other?, Reached other) → (call.run list).1 = .error e →
    (call.run list).2.plain = list.plain
  agrees : ∀ (call : Call), (∀ other ∈ call.other?, Reached other) →
    Agrees list (call.run list) (call.onPlain list.plain)

/-- A list that calls have made of a new one is stable, whatever was read from it in between. -/
theorem Reached.stable (reached : Reached list) : Stable list := by
  have sound := reached.sound
  have agrees (call : Call) (others : ∀ other ∈ call.other?, Reached other) :
      Agrees list (call.run list) (call.onPlain list.plain) :=
    run_agrees sound call fun other member => (others other member).sound
  constructor
  case slots =>
    intro c member
    exact (sound c member).parameter
  case value =>
    intro i c v held slot short
    have wire : c.parameter.wireValue (i + 1) = .ok (some v.bytes) := by
      rw [Parameter.wireValue, slot]
      exact if_neg (Nat.not_lt.2 short)
    exact written_of_held sound held wire
  case null =>
    intro i c held slot
    have wire : c.parameter.wireValue (i + 1) = .ok none := by rw [Parameter.wireValue, slot]
    exact written_of_held sound held wire
  case values => exact wireValues_of_short sound
  case missing => exact fun e => ParameterList.checkAllSet_error_iff
  case typed =>
    intro call i c c' others held holds specified other
    exact retypes_of_run sound (fun other member => (others other member).sound) held holds specified other
  case resolved =>
    intro i found few
    have result := (agrees (.alter (.operation (.setResolvedType found)) (i + 1)) (by simp [Call.other?])).result
    rw [result]
    simp only [map_eq_error]
    refine (ParameterList.setResolvedType_error_iff few).trans ?_
    rw [plain_getElem?]
    cases list[i]? <;> simp
  case refused =>
    intro call e others failed
    rw [(agrees call others).result, map_eq_error] at failed
    rw [(agrees call others).plain, failed]
    rfl
  case agrees => exact agrees

def remembering : CachedList :=
  (Call.run (.wireValue 1) (Call.run (.alter (.operation (.bind (.text "a") Oid.text)) 1) (ofCount 1)).2).2

def rebound : CachedList := (Call.run (.alter (.operation (.bind (.text "bc") Oid.text)) 1) remembering).2

theorem Reached.stable_rebound :
    Reached rebound ∧ remembering.map (·.encoded) = [some (Bytes.ofString "a")] ∧
      (rebound.wireValue 1).1 = .ok ⟨2, Bytes.ofString "bc"⟩ := by
  have reached : Reached rebound := by
    refine .call _ (.call _ (.call _ (.ofCount 1) ?_) ?_) ?_
    all_goals simp [Call.other?]
  have written := reached.stable.value 0 _ (.text "bc") rfl rfl (by decide)
  exact ⟨reached, rfl, written.2.2⟩

end CachedList

end ExtendedQuery
