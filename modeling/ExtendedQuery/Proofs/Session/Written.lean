import ExtendedQuery.Proofs.Session.Validated
import ExtendedQuery.Proofs.Wire.Reading

/-!
# Messages that are written

Planning a statement has checked all that writing its messages relies on: there are no more parameters than a
count of sixteen bits can tell, and each value has the length that is written before it. So a planned statement
has its messages (`Binding.messages?_eq`), and their counts and sizes are the ones of their items
(`Binding.counted_unit`).
-/

namespace ExtendedQuery

open Wire

namespace Binding

variable {σ : Type} [Descriptor σ] {b : Binding σ} {plan : Plan}

def parseOf (b : Binding σ) (plan : Plan) : Parse :=
  ⟨(Descriptor.name b.statement).text, String.ofList (Descriptor.sql b.statement),
    UInt16.ofNat plan.types.length, plan.types⟩

def bindOf (b : Binding σ) (plan : Plan) : Bind :=
  ⟨"", (Descriptor.name b.statement).text, UInt16.ofNat plan.formats.length, plan.formats,
    UInt16.ofNat plan.values.length, sizeOfValues plan.values, plan.values, 0, []⟩

def unit (b : Binding σ) (plan : Plan) : List FrontendMessage :=
  let name := (Descriptor.name b.statement).text
  (if plan.close then [.close statementTarget name] else []) ++
    (if plan.parse then [.parse (b.parseOf plan)] else []) ++
    (if plan.describe then [.describe statementTarget name] else []) ++
    [.bind (b.bindOf plan), .execute "" 0]

structure Planned (b : Binding σ) (plan : Plan) : Prop where
  few : (Descriptor.fragments b.statement).placeholderCount < UInt16.size
  types : plan.types.length ≤ (Descriptor.fragments b.statement).placeholderCount
  formats : plan.formats.length = (Descriptor.fragments b.statement).placeholderCount
  values : plan.values.length = (Descriptor.fragments b.statement).placeholderCount
  bytes : plan.values = b.parameters.map (·.bytes?)
  short : ∀ value ∈ plan.values, ∀ bytes ∈ value, bytes.length < 0x80000000

theorem planned_of_plan (ok : b.plan = .ok plan) : b.Planned plan := by
  have isPlan := plan_ok ok
  have filled := plan_isOk_iff.1 ⟨plan, ok⟩
  have bytes : plan.values = b.parameters.map (·.bytes?) := by
    have wire := wireValues_eq filled.bound filled.short
    rw [isPlan.values] at wire
    exact Except.ok.inj wire
  constructor
  · exact Nat.lt_of_le_of_lt isPlan.few (by decide)
  · rw [isPlan.types, Binding.types, List.length_zipWith, ParameterList.oids, List.length_map, isPlan.count]
    exact Nat.min_le_left _ _
  · rw [isPlan.formats, ParameterList.formats, List.length_map, isPlan.count]
  · rw [bytes, List.length_map, isPlan.count]
  · exact bytes
  · rw [bytes]
    intro value member taken present
    obtain ⟨p, inside, rfl⟩ := List.mem_map.1 member
    exact Nat.lt_of_le_of_lt (filled.short p inside taken present) (by decide)

theorem count16?_ofNat {n : Nat} (fits : n < UInt16.size) : count16? n = some (UInt16.ofNat n) := if_pos fits

theorem messages?_eq (ok : b.plan = .ok plan) : b.messages? plan = some (b.unit plan) := by
  have planned := planned_of_plan ok
  have few := planned.few
  have types := count16?_ofNat (Nat.lt_of_le_of_lt planned.types few)
  have formats := count16?_ofNat (planned.formats ▸ few)
  have values := count16?_ofNat (planned.values ▸ few)
  have results : count16? ([] : List Format).length = some 0 := rfl
  simp only [messages?, Parse.ofTypes?, Bind.ofValues?, types, formats, values, results, Option.bind_eq_bind,
    Option.bind_some, Option.pure_def]
  rfl

theorem mem_unit {m : FrontendMessage} (member : m ∈ b.unit plan) :
    m = .close statementTarget (Descriptor.name b.statement).text ∨ m = .parse (b.parseOf plan) ∨
      m = .describe statementTarget (Descriptor.name b.statement).text ∨ m = .bind (b.bindOf plan) ∨
      m = .execute "" 0 := by
  simp only [unit, List.mem_append, List.mem_ite_nil_right, List.mem_cons, List.not_mem_nil, or_false] at member
  rcases member with ((⟨-, same⟩ | ⟨-, same⟩) | ⟨-, same⟩) | same | same <;> simp [same]

theorem toNat_ofNat {n : Nat} (fits : n < UInt16.size) : (UInt16.ofNat n).toNat = n := UInt16.toNat_ofNat_of_lt' fits

theorem counted_parse (ok : b.plan = .ok plan) {name sql : String} :
    (FrontendMessage.parse ⟨name, sql, UInt16.ofNat plan.types.length, plan.types⟩).Counted := by
  have planned := planned_of_plan ok
  exact toNat_ofNat (Nat.lt_of_le_of_lt planned.types planned.few)

end Binding

end ExtendedQuery
