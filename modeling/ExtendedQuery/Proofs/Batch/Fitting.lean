import ExtendedQuery.Proofs.Batch.Answers

/-!
# Parameters that fit

An exchange for an insert is sent if all its parameters are bound, if there are as many as the insert has
placeholders, and if its values and messages are not too long for the protocol (`requests?_isSome`).
-/

namespace ExtendedQuery

open Wire FrontendMessage

def ParameterList.Short (list : ParameterList) : Prop :=
  ∀ p ∈ list, ∀ bytes, p.bytes? = some bytes → bytes.length ≤ Parameter.maxValueLength

theorem wireValue_eq {p : Parameter} (bound : p.isBound = true)
    (short : ∀ bytes, p.bytes? = some bytes → bytes.length ≤ Parameter.maxValueLength) (index : Nat) :
    p.wireValue index = .ok p.bytes? := by
  unfold Parameter.wireValue Parameter.bytes?
  cases slot : p.slot with
  | unbound => simp [Parameter.isBound, slot] at bound
  | null => rfl
  | value value =>
    have length := short value.bytes (by simp [Parameter.bytes?, slot])
    exact if_neg (Nat.not_lt.2 length)

theorem checkAllSet_ok {list : ParameterList} :
    list.checkAllSet = .ok () ↔ ∀ p ∈ list, p.isBound = true := by
  unfold ParameterList.checkAllSet
  cases found : list.findIdx? (!·.isBound) with
  | none =>
    rw [List.findIdx?_eq_none_iff] at found
    simpa using found
  | some i =>
    obtain ⟨below, unbound, -⟩ := List.findIdx?_eq_some_iff_getElem.1 found
    simp only [reduceCtorEq, false_iff, not_forall]
    exact ⟨list[i], List.getElem_mem below, by simpa using unbound⟩

theorem wireValues_eq {list : ParameterList} (bound : ∀ p ∈ list, p.isBound = true) (short : list.Short) :
    list.wireValues = .ok (list.map (·.bytes?)) := by
  unfold ParameterList.wireValues
  generalize 1 = start
  induction list generalizing start with
  | nil => rfl
  | cons p later ih =>
    have first := wireValue_eq (bound p (by simp)) (short p (by simp)) start
    have others := ih (fun q member => bound q (by simp [member])) (fun q member => short q (by simp [member]))
      (start + 1)
    rw [List.zipIdx_cons, List.mapM_cons]
    dsimp only
    rw [first, others]
    rfl

theorem count16?_eq {n : Nat} (few : n ≤ maxParameters) :
    ∃ count, count16? n = some count ∧ count.toNat = n := by
  have below : n < UInt16.size := Nat.lt_of_le_of_lt few (by decide)
  refine ⟨UInt16.ofNat n, if_pos below, ?_⟩
  rw [UInt16.toNat_ofNat']
  exact Nat.mod_eq_of_lt below

section

variable {σ : Type} [Descriptor σ]

structure Binding.Fits (b : Binding σ) : Prop where
  short : b.parameters.Short
  parse : 4 + (stringSize (Descriptor.name b.statement).text +
    stringSize (String.ofList (Descriptor.sql b.statement)) + 2 + b.parameters.length * 4) < UInt32.size
  bind : 4 + (stringSize "" + stringSize (Descriptor.name b.statement).text + 2 +
    b.parameters.length * 2 + 2 + sizeOfValues (b.parameters.map (·.bytes?)) + 2) < UInt32.size

theorem plan_isOk {b : Binding σ} {values : List (Option Bytes)}
    (count : b.parameters.length = (Descriptor.fragments b.statement).placeholderCount)
    (few : b.parameters.length ≤ maxParameters) (bound : b.parameters.checkAllSet = .ok ())
    (wire : b.parameters.wireValues = .ok values) : ∃ plan, b.plan = .ok plan := by
  unfold Binding.plan
  rw [if_neg (by omega), if_neg (not_not.2 count), bound, wire]
  exact ⟨_, rfl⟩

theorem messages?_isSome {b : Binding σ} {plan : Plan} (planned : IsPlanOf b plan)
    (few : b.parameters.length ≤ maxParameters) (fits : b.Fits)
    (wire : b.parameters.wireValues = .ok (b.parameters.map (·.bytes?))) :
    ∃ messages, b.messages? plan = some messages ∧ ∀ m ∈ messages, m.frame?.isSome := by
  have values : plan.values = b.parameters.map (·.bytes?) := by
    have same := planned.values
    rw [wire] at same
    exact (Except.ok.inj same).symm
  have formats : plan.formats.length = b.parameters.length := by
    rw [planned.formats, ParameterList.formats, List.length_map]
  have types : plan.types.length ≤ b.parameters.length := by
    rw [planned.types, Binding.types, List.length_zipWith, ParameterList.oids, List.length_map]
    exact Nat.min_le_left _ _
  have length : plan.values.length ≤ maxParameters := by rwa [values, List.length_map]
  obtain ⟨typeCount, typesFit, typesSame⟩ := count16?_eq (types.trans few)
  obtain ⟨formatCount, formatsFit, formatsSame⟩ := count16?_eq (formats.le.trans few)
  obtain ⟨valueCount, valuesFit, -⟩ := count16?_eq length
  have noResults : count16? ([] : List Format).length = some 0 := rfl
  simp only [Binding.messages?, Parse.ofTypes?, Bind.ofValues?, typesFit, formatsFit, valuesFit, noResults,
    Option.bind_eq_bind, Option.bind_some, Option.pure_def, Option.some.injEq, exists_eq_left']
  have parses := fits.parse
  have name : 4 + (1 + stringSize (Descriptor.name b.statement).text) < UInt32.size := by omega
  intro m member
  simp only [List.mem_append, List.mem_ite_nil_right, List.mem_cons, List.not_mem_nil, or_false] at member
  rcases member with ((⟨-, rfl⟩ | ⟨-, rfl⟩) | ⟨-, rfl⟩) | rfl | rfl
  · exact frame?_isSome trivial name
  · refine frame?_isSome typesSame ?_
    simp only [declaredSize, typesSame]
    omega
  · exact frame?_isSome trivial name
  · refine frame?_isSome ⟨formatsSame, rfl, rfl⟩ ?_
    simp only [declaredSize, formatsSame, formats, values]
    exact fits.bind
  · exact frame?_isSome trivial (by decide)

theorem requests?_isSome {b : Binding σ}
    (count : b.parameters.length = (Descriptor.fragments b.statement).placeholderCount)
    (few : b.parameters.length ≤ maxParameters) (bound : ∀ p ∈ b.parameters, p.isBound = true)
    (fits : b.Fits) : ∃ requests, requests? [b] = some requests := by
  have wire := wireValues_eq bound fits.short
  obtain ⟨plan, planned⟩ := plan_isOk count few (checkAllSet_ok.2 bound) wire
  obtain ⟨messages, some, framed⟩ := messages?_isSome (plan_ok planned) few fits wire
  have unit : unit? (b, plan) = Option.some (b.requests messages) := by rw [unit?, some]; rfl
  have pipeline : pipelineOf [b.requests messages].flatten = messages ++ [.sync] := by
    simp [pipelineOf, Binding.request, Function.comp_def]
  have written : (writeAll? (messages ++ [.sync]) []).isSome := by
    refine writeAll?_isSome (fun m member => ?_) []
    rcases List.mem_append.1 member with inside | last
    · exact framed m inside
    · rw [List.mem_singleton.1 last]
      exact frame?_isSome trivial (by decide)
  obtain ⟨bytes, written⟩ := Option.isSome_iff_exists.1 written
  have plans : [b].mapM Binding.plan = .ok [plan] := by rw [List.mapM_cons, planned]; rfl
  have units : [(b, plan)].mapM unit? = Option.some [b.requests messages] := by rw [List.mapM_cons, unit]; rfl
  refine ⟨[b.requests messages].flatten, ?_⟩
  rw [requests?, plans]
  change ([(b, plan)].mapM unit?).bind _ = _
  rw [units]
  change (writeAll? (pipelineOf [b.requests messages].flatten) []).bind _ = _
  rw [pipeline, written]
  rfl

end

end ExtendedQuery
