import ExtendedQuery.Execute
import ExtendedQuery.Proofs.Statement.Agreement

/-!
# What a pipeline asks for

The messages of a pipeline are sent for statements, each with a text and with parameters of certain types
(`Request`). A request is expected to be one that the server can follow: a parse takes a free name, and a
description or a bind reaches the statement that it is sent for (`Expects`). Main statement:
`obeyed_requests`, all requests of an exchange are expected, as long as the server has refused none.
-/

namespace ExtendedQuery

open Wire

/-! ## Lists of optional results -/

theorem mapM_some {α β : Type} {f : α → Option β} {as : List α} {bs : List β}
    (h : as.mapM f = some bs) : List.Forall₂ (fun a b => f a = some b) as bs := by
  induction as generalizing bs with
  | nil =>
    cases h
    exact .nil
  | cons a as ih =>
    simp only [List.mapM_cons, Option.bind_eq_bind, Option.pure_def, Option.bind_eq_some_iff,
      Option.some.injEq] at h
    obtain ⟨b, first, bs', later, rfl⟩ := h
    exact .cons first (ih later)

theorem mapM_ok {α β ε : Type} {f : α → Except ε β} {as : List α} {bs : List β}
    (h : as.mapM f = .ok bs) : (as.zip bs).map (·.1) = as ∧ ∀ a b, (a, b) ∈ as.zip bs → f a = .ok b := by
  induction as generalizing bs with
  | nil => simp
  | cons a as ih =>
    rw [List.mapM_cons] at h
    cases first : f a with
    | error e => rw [first] at h; cases h
    | ok b =>
      rw [first] at h
      cases later : as.mapM f with
      | error e => rw [later] at h; cases h
      | ok bs' =>
        rw [later] at h
        cases h
        obtain ⟨same, each⟩ := ih later
        refine ⟨by simp [same], fun x y member => ?_⟩
        rcases List.mem_cons.1 member with pair | inside
        · cases pair
          exact first
        · exact each x y inside

theorem exists_of_mem_right {α β : Type} {R : α → β → Prop} {as : List α} {bs : List β}
    (related : List.Forall₂ R as bs) {b : β} (member : b ∈ bs) : ∃ a ∈ as, R a b := by
  induction related with
  | nil => cases member
  | @cons a _ as _ first _ ih =>
    rcases List.mem_cons.1 member with rfl | inside
    · exact ⟨a, by simp, first⟩
    · obtain ⟨found, among, step⟩ := ih inside
      exact ⟨found, List.mem_cons_of_mem _ among, step⟩

theorem framed_of_writeAll? {messages : List FrontendMessage} {buffer bytes : Bytes}
    (written : FrontendMessage.writeAll? messages buffer = some bytes) : ∀ m ∈ messages, m.frame?.isSome := by
  intro m member
  simp only [FrontendMessage.writeAll?, Option.bind_eq_bind, Option.pure_def, Option.bind_eq_some_iff,
    Option.some.injEq] at written
  obtain ⟨frames, made, -⟩ := written
  obtain ⟨frame, -, framed⟩ := exists_of_mem_right (mapM_some made).flip member
  exact Option.isSome_iff_exists.2 ⟨frame, framed⟩

/-! ## Requests -/

structure Request where
  sql : String
  oids : List Oid
  message : FrontendMessage

abbrev pipelineOf (requests : List Request) : List FrontendMessage :=
  requests.map (·.message) ++ [.sync]

section

variable {σ : Type} [Descriptor σ]

def Binding.request (b : Binding σ) (message : FrontendMessage) : Request :=
  ⟨String.ofList (Descriptor.sql b.statement), b.parameters.oids, message⟩

abbrev Binding.requests (b : Binding σ) (messages : List FrontendMessage) : List Request :=
  messages.map b.request

def unit? (p : Binding σ × Plan) : Option (List Request) := (p.1.messages? p.2).map p.1.requests

def requests? (bindings : List (Binding σ)) : Option (List Request) := do
  let plans ← (bindings.mapM Binding.plan).toOption
  let units ← (bindings.zip plans).mapM unit?
  let _ ← FrontendMessage.writeAll? (pipelineOf units.flatten) []
  return units.flatten

theorem pipelineMessages?_eq (planned : List (Binding σ × Plan)) :
    pipelineMessages? planned =
      (planned.mapM unit?).map fun units => pipelineOf units.flatten := by
  have each : planned.mapM (fun p : Binding σ × Plan => p.1.messages? p.2) =
      (planned.mapM unit?).map (·.map (·.map (·.message))) := by
    induction planned with
    | nil => rfl
    | cons p planned ih =>
      rw [List.mapM_cons, List.mapM_cons, ih]
      cases first : p.1.messages? p.2 with
      | none => simp [unit?, first]
      | some messages =>
        cases later : planned.mapM unit? with
        | none => simp [unit?, first]
        | some units => simp [unit?, first, Binding.request, Function.comp_def]
  unfold pipelineMessages?
  change (planned.mapM (fun p : Binding σ × Plan => p.1.messages? p.2)).bind _ = _
  rw [each]
  cases planned.mapM unit? with
  | none => rfl
  | some units => simp [pipelineOf, List.map_flatten]

theorem exchange_of_requests {bindings : List (Binding σ)} {requests : List Request}
    (h : requests? bindings = some requests) :
    ∃ planned units bytes, planned.map (·.1) = bindings ∧
      (∀ p ∈ planned, p.1.plan = .ok p.2) ∧
      List.Forall₂ (fun p unit => unit? p = some unit) planned units ∧
      requests = units.flatten ∧ FrontendMessage.writeAll? (pipelineOf requests) [] = some bytes ∧
      ∀ c : Connection, c.writable = true → exchange bindings c =
        match awaitAll planned { c with sent := c.sent ++ [bytes] } with
        | (outcome, bindings, d) => ((d.resynchronise outcome).1, bindings, (d.resynchronise outcome).2) := by
  unfold requests? at h
  cases plansOk : bindings.mapM Binding.plan with
  | error e => rw [plansOk] at h; cases h
  | ok plans =>
    simp only [plansOk, Except.toOption, Option.bind_eq_bind, Option.bind_some,
      Option.bind_eq_some_iff, Option.pure_def, Option.some.injEq] at h
    obtain ⟨units, unitsOk, bytes, written, rfl⟩ := h
    obtain ⟨same, each⟩ := mapM_ok plansOk
    refine ⟨bindings.zip plans, units, bytes, same, fun p => each p.1 p.2, mapM_some unitsOk, rfl, written, ?_⟩
    intro c writable
    unfold exchange
    rw [plansOk]
    dsimp only
    rw [pipelineMessages?_eq, unitsOk]
    simp only [Option.map_some, Option.bind_some, written, Connection.send, writable, if_true]

theorem exchange_of_no_requests {bindings : List (Binding σ)} (h : requests? bindings = none)
    (c : Connection) : ∃ e, exchange bindings c = (.error e, bindings, c) := by
  unfold requests? at h
  unfold exchange
  cases plansOk : bindings.mapM Binding.plan with
  | error e => exact ⟨_, rfl⟩
  | ok plans =>
    simp only [plansOk, Except.toOption, Option.bind_eq_bind, Option.bind_some, Option.pure_def,
      Option.bind_eq_none_iff, reduceCtorEq, imp_false] at h
    dsimp only
    rw [pipelineMessages?_eq]
    cases unitsOk : (bindings.zip plans).mapM unit? with
    | none => exact ⟨_, rfl⟩
    | some units =>
      have unwritten := Option.eq_none_iff_forall_ne_some.2 (h units unitsOk)
      simp only [Option.map_some, Option.bind_some, unwritten]
      exact ⟨_, rfl⟩

theorem exchange_of_unwritable {c : Connection} (unwritable : c.writable = false) (bindings : List (Binding σ)) :
    ∃ e, exchange bindings c = (.error e, bindings, c) := by
  unfold exchange
  split
  · exact ⟨_, rfl⟩
  · dsimp only
    split
    · exact ⟨_, rfl⟩
    · rw [Connection.send, unwritable, if_neg Bool.false_ne_true]
      exact ⟨_, rfl⟩

end

/-! ## What the server is expected to hold -/

/-- The server keeps the statement of the request under the name, and it takes parameters of the types
that the request has. -/
def Request.Reaches (r : Request) (held : Holdings) (name : String) : Prop :=
  ∃ types, held name = some ⟨r.sql, types⟩ ∧ Resolves r.oids types

def Expects (held : Holdings) (r : Request) : Prop :=
  match r.message with
  | .parse m => m.name = "" ∨ held m.name = none
  | .describe _ name => r.Reaches held name
  | .bind m => r.Reaches held m.statement
  | _ => True

def Obeyed : Holdings → List Request → Prop
  | _, [] => True
  | held, r :: later => Expects held r ∧ ∀ replies held', Accepts held r.message replies held' → Obeyed held' later

inductive Passes : Holdings → List Request → Holdings → Prop
  | nil {held : Holdings} : Passes held [] held
  | cons {held held' last : Holdings} {r : Request} {later : List Request}
      {replies : List BackendMessage} : Accepts held r.message replies held' → Passes held' later last →
      Passes held (r :: later) last

theorem Obeyed.append {held : Holdings} {a b : List Request} (first : Obeyed held a)
    (second : ∀ held', Passes held a held' → Obeyed held' b) : Obeyed held (a ++ b) := by
  induction a generalizing held with
  | nil => exact second held .nil
  | cons r a ih =>
    refine ⟨first.1, fun replies held' accepts => ih (first.2 replies held' accepts) ?_⟩
    intro last passes
    exact second last (.cons accepts passes)

theorem Obeyed.of_append {held : Holdings} {a b : List Request} (obeyed : Obeyed held (a ++ b)) :
    Obeyed held a := by
  induction a generalizing held with
  | nil => exact trivial
  | cons r a ih => exact ⟨obeyed.1, fun replies held' accepts => ih (obeyed.2 replies held' accepts)⟩

/-! ## Messages for one name -/

def Concerns (name sql : String) : FrontendMessage → Prop
  | .parse m => m.name = name ∧ m.sql = sql
  | .bind m => m.statement = name
  | .describe _ other | .close _ other => other = name
  | .execute _ _ => True
  | .sync => False

theorem Accepts.frame {held held' : Holdings} {message : FrontendMessage} {replies : List BackendMessage}
    (accepts : Accepts held message replies held') {name sql other : String}
    (concerns : Concerns name sql message) (different : other ≠ name) : held' other = held other := by
  cases accepts with
  | close =>
    cases concerns
    exact Function.update_of_ne different _ _
  | parse =>
    obtain ⟨rfl, -⟩ := concerns
    exact Function.update_of_ne different _ _
  | _ => rfl

theorem Passes.frame {held held' : Holdings} {requests : List Request} (passes : Passes held requests held')
    {name sql other : String} (concerns : ∀ r ∈ requests, Concerns name sql r.message)
    (different : other ≠ name) : held' other = held other := by
  induction passes with
  | nil => rfl
  | cons accepts _ ih =>
    rw [ih fun r member => concerns r (by simp [member]), accepts.frame (concerns _ (by simp)) different]

theorem Server.Runs.frame {s t : Server} {messages : List FrontendMessage} {replies : List BackendMessage}
    (runs : Server.Runs s messages replies t) {name sql other : String}
    (concerns : ∀ m ∈ messages, Concerns name sql m) (different : other ≠ name) :
    t.held other = s.held other := by
  induction runs with
  | nil => rfl
  | @cons s t u message messages replies later step _ ih =>
    rw [ih fun m member => concerns m (by simp [member])]
    cases step with
    | accept accepts => exact accepts.frame (concerns message (by simp)) different
    | _ => rfl

/-! ## The requests for one statement -/

section

variable {σ : Type} [Descriptor σ]

structure IsPlanOf (b : Binding σ) (plan : Plan) : Prop where
  few : (Descriptor.fragments b.statement).placeholderCount ≤ maxParameters
  count : b.parameters.length = (Descriptor.fragments b.statement).placeholderCount
  types : plan.types = b.types
  parse : plan.parse = !Descriptor.isPreparedFor b.types b.statement
  close : plan.close = (plan.parse && Descriptor.isParsed b.statement)
  describe : plan.describe = (plan.close || !Descriptor.isDescribed b.statement)
  formats : plan.formats = b.parameters.formats
  values : b.parameters.wireValues = .ok plan.values

theorem plan_ok {b : Binding σ} {plan : Plan} (h : b.plan = .ok plan) : IsPlanOf b plan := by
  unfold Binding.plan at h
  by_cases many : maxParameters < (Descriptor.fragments b.statement).placeholderCount
  · rw [if_pos many] at h
    cases h
  rw [if_neg many] at h
  by_cases other : b.parameters.length ≠ (Descriptor.fragments b.statement).placeholderCount
  · rw [if_pos other] at h
    cases h
  rw [if_neg other] at h
  cases allSet : b.parameters.checkAllSet with
  | error e => rw [allSet] at h; cases h
  | ok =>
    rw [allSet] at h
    cases values : b.parameters.wireValues with
    | error e => rw [values] at h; cases h
    | ok wire =>
      rw [values] at h
      cases h
      exact ⟨Nat.not_lt.1 many, not_not.1 other, rfl, rfl, rfl, rfl, rfl, values⟩

inductive IsUnitOf (b : Binding σ) (plan : Plan) : List FrontendMessage → Prop
  | mk {parse : Parse} {bind : Bind} : parse.name = (Descriptor.name b.statement).text →
      parse.sql = String.ofList (Descriptor.sql b.statement) → parse.types = plan.types →
      bind.statement = (Descriptor.name b.statement).text → bind.formats = plan.formats →
      bind.values = plan.values →
      IsUnitOf b plan
        ((if plan.close then [.close statementTarget (Descriptor.name b.statement).text] else []) ++
          (if plan.parse then [.parse parse] else []) ++
          (if plan.describe then [.describe statementTarget (Descriptor.name b.statement).text] else []) ++
          [.bind bind, .execute "" 0])

theorem messages?_some {b : Binding σ} {plan : Plan} {messages : List FrontendMessage}
    (h : b.messages? plan = some messages) : IsUnitOf b plan messages := by
  simp only [Binding.messages?, Parse.ofTypes?, Bind.ofValues?, Option.bind_eq_bind,
    Option.pure_def, Option.bind_eq_some_iff, Option.some.injEq] at h
  obtain ⟨parse, ⟨count, -, rfl⟩, bind, ⟨formats, -, values, -, results, -, rfl⟩, rfl⟩ := h
  exact .mk rfl rfl rfl rfl rfl rfl

theorem unit?_some {p : Binding σ × Plan} {unit : List Request} (h : unit? p = some unit) :
    ∃ messages, IsUnitOf p.1 p.2 messages ∧ unit = p.1.requests messages := by
  obtain ⟨messages, some, rfl⟩ := Option.map_eq_some_iff.1 h
  exact ⟨messages, messages?_some some, rfl⟩

theorem IsUnitOf.concerns {b : Binding σ} {plan : Plan} {messages : List FrontendMessage}
    (h : IsUnitOf b plan messages) :
    ∀ m ∈ messages, Concerns (Descriptor.name b.statement).text
      (String.ofList (Descriptor.sql b.statement)) m := by
  cases h with
  | mk parseName parseSql _ bindName =>
    intro m member
    simp only [List.mem_append, List.mem_ite_nil_right, List.mem_cons, List.not_mem_nil, or_false] at member
    rcases member with ((⟨-, rfl⟩ | ⟨-, rfl⟩) | ⟨-, rfl⟩) | rfl | rfl
    · exact rfl
    · exact ⟨parseName, parseSql⟩
    · exact rfl
    · exact bindName
    · trivial

theorem resolves_oids {known described resolved : List Oid} (length : known.length ≤ described.length)
    (h : Resolves (List.zipWith Oid.orElse known described) resolved) : Resolves known resolved := by
  induction known generalizing described resolved with
  | nil =>
    rw [List.zipWith_nil_left] at h
    exact h
  | cons oid known ih =>
    cases described with
    | nil => cases length
    | cons found described =>
      rw [List.zipWith_cons_cons] at h
      cases h with
      | cons first later =>
        refine .cons ?_ (ih (Nat.le_of_succ_le_succ length) later)
        by_cases open' : oid = Oid.unspecified
        · exact .inl open'
        · simp only [Oid.orElse, if_neg open'] at first
          exact first

theorem resolves_of_accepts {declared wanted resolved : List Oid}
    (accepts : Oid.accepts declared wanted = true) (resolves : Resolves declared resolved) :
    Resolves wanted resolved := by
  simp only [Oid.accepts, Bool.and_eq_true, beq_iff_eq] at accepts
  obtain ⟨length, each⟩ := accepts
  induction resolves generalizing wanted with
  | nil =>
    cases wanted with
    | nil => exact .nil
    | cons => cases length
  | @cons d r declared resolved first later ih =>
    cases wanted with
    | nil => cases length
    | cons w wanted =>
      simp only [List.zip_cons_cons, List.all_cons, Bool.and_eq_true, Bool.or_eq_true, beq_iff_eq] at each
      refine .cons ?_ (ih (Nat.succ.inj length) each.2)
      rcases each.1 with open' | same
      · exact .inl open'
      · exact same ▸ first

theorem obeyed_bind {b : Binding σ} {held : Holdings} {bind : Bind} (describe : Bool)
    (name : bind.statement = (Descriptor.name b.statement).text)
    (reaches : ∀ m, (b.request m).Reaches held (Descriptor.name b.statement).text) :
    Obeyed held (b.requests
      ((if describe then [.describe statementTarget (Descriptor.name b.statement).text] else []) ++
        [.bind bind, .execute "" 0])) := by
  have last : Obeyed held (b.requests [.bind bind, .execute "" 0]) := by
    refine ⟨?_, fun replies held' accepts => ⟨trivial, fun _ _ _ => trivial⟩⟩
    change (b.request (.bind bind)).Reaches held bind.statement
    rw [name]
    exact reaches _
  cases describe with
  | false => exact last
  | true =>
    refine ⟨reaches _, fun replies held' accepts => ?_⟩
    cases accepts
    exact last

variable [Tracked σ]

theorem length_oids {b : Binding σ} {plan : Plan} {held : Holdings}
    (agrees : Tracked.Agrees held b.statement) (planned : IsPlanOf b plan) :
    b.parameters.oids.length = (Descriptor.types b.statement).length := by
  rw [ParameterList.oids, List.length_map, planned.count, Tracked.agrees_length agrees]

theorem reaches_of_resolves {b : Binding σ} {plan : Plan} {held : Holdings}
    (agrees : Tracked.Agrees held b.statement) (planned : IsPlanOf b plan) {resolved : List Oid}
    (found : held (Descriptor.name b.statement).text =
      some ⟨String.ofList (Descriptor.sql b.statement), resolved⟩)
    (resolves : Resolves plan.types resolved) (message : FrontendMessage) :
    (b.request message).Reaches held (Descriptor.name b.statement).text := by
  rw [planned.types] at resolves
  exact ⟨resolved, found, resolves_oids (length_oids agrees planned).le resolves⟩

theorem found_of_prepared {b : Binding σ} {plan : Plan} {held : Holdings}
    (agrees : Tracked.Agrees held b.statement) (planned : IsPlanOf b plan) (again : plan.parse = false) :
    ∃ resolved, held (Descriptor.name b.statement).text =
      some ⟨String.ofList (Descriptor.sql b.statement), resolved⟩ ∧ Resolves plan.types resolved := by
  have prepared := planned.parse.symm.trans again
  rw [Bool.not_eq_false', Descriptor.isPreparedFor] at prepared
  cases declared : Descriptor.prepared b.statement with
  | none => rw [declared] at prepared; cases prepared
  | some types =>
    rw [declared] at prepared
    cases unnamed : (Descriptor.name b.statement).isUnnamed with
    | true =>
      rw [Tracked.agrees_unnamed agrees unnamed] at declared
      cases declared
    | false =>
      have reflects := Tracked.agrees_name agrees unnamed
      rw [declared] at reflects
      generalize now : held (Descriptor.name b.statement).text = found at reflects
      cases reflects with
      | held resolves =>
        exact ⟨_, rfl, planned.types ▸ resolves_of_accepts prepared resolves⟩

theorem free_of_not_parsed {b : Binding σ} {held : Holdings} (agrees : Tracked.Agrees held b.statement)
    (unparsed : Descriptor.isParsed b.statement = false) :
    (Descriptor.name b.statement).text = "" ∨ held (Descriptor.name b.statement).text = none := by
  cases unnamed : (Descriptor.name b.statement).isUnnamed with
  | true => exact .inl ((StatementName.isUnnamed_iff _).1 unnamed)
  | false =>
    have same := (Tracked.agrees_name agrees unnamed).isSome_iff
    have nothing : ¬ (held (Descriptor.name b.statement).text).isSome := by
      rw [← same]
      simpa [Descriptor.isParsed] using unparsed
    exact .inr (Option.not_isSome_iff_eq_none.1 nothing)

theorem obeyed_parse {b : Binding σ} {plan : Plan} {held : Holdings} {parse : Parse} {bind : Bind}
    (agrees : Tracked.Agrees held b.statement) (planned : IsPlanOf b plan)
    (parseName : parse.name = (Descriptor.name b.statement).text)
    (parseSql : parse.sql = String.ofList (Descriptor.sql b.statement)) (parseTypes : parse.types = plan.types)
    (bindName : bind.statement = (Descriptor.name b.statement).text) {now : Holdings}
    (free : (Descriptor.name b.statement).text = "" ∨ now (Descriptor.name b.statement).text = none) :
    Obeyed now (b.requests ([.parse parse] ++
      ((if plan.describe then [.describe statementTarget (Descriptor.name b.statement).text] else []) ++
        [.bind bind, .execute "" 0]))) := by
  refine ⟨?_, fun replies now' accepts => ?_⟩
  · change parse.name = "" ∨ now parse.name = none
    rw [parseName]
    exact free
  · cases accepts with
    | @parse _ resolved _ resolves =>
      refine obeyed_bind plan.describe bindName fun message => ?_
      rw [parseTypes, planned.types] at resolves
      refine ⟨resolved, ?_, resolves_oids (length_oids agrees planned).le resolves⟩
      rw [parseName, parseSql, Function.update_self]
      rfl

theorem obeyed_unit {b : Binding σ} {plan : Plan} {held : Holdings} {messages : List FrontendMessage}
    (agrees : Tracked.Agrees held b.statement) (planned : IsPlanOf b plan)
    (unit : IsUnitOf b plan messages) : Obeyed held (b.requests messages) := by
  cases unit with
  | @mk parse bind parseName parseSql parseTypes bindName =>
    rw [List.append_assoc, List.append_assoc]
    cases again : plan.parse with
    | false =>
      -- What is not parsed again was recorded, so the server keeps it.
      have close : plan.close = false := by rw [planned.close, again, Bool.false_and]
      obtain ⟨resolved, found, resolves⟩ := found_of_prepared agrees planned again
      rw [close]
      exact obeyed_bind plan.describe bindName fun message =>
        reaches_of_resolves agrees planned found resolves message
    | true =>
      have parsed := fun (now : Holdings) free =>
        (obeyed_parse agrees planned parseName parseSql parseTypes bindName free : Obeyed now _)
      -- The name is free, by the records or because it was closed just before.
      cases close : plan.close with
      | false =>
        rw [planned.close, again, Bool.true_and] at close
        exact parsed held (free_of_not_parsed agrees close)
      | true =>
        refine ⟨trivial, fun replies now accepts => ?_⟩
        cases accepts
        exact parsed _ (.inr (Function.update_self _ _ _))

/-! ## The requests for several statements -/

def Apart (s t : σ) : Prop := ∀ name, Tracked.Owns s name → ¬ Tracked.Owns t name

theorem Apart.ne_name {s t : σ} (apart : Apart s t) {name : String} (owns : Tracked.Owns t name) :
    name ≠ (Descriptor.name s).text := by
  rintro rfl
  cases unnamed : (Descriptor.name s).isUnnamed with
  | true =>
    rw [(StatementName.isUnnamed_iff _).1 unnamed] at owns
    exact Tracked.not_owns_unnamed t owns
  | false => exact apart _ (Tracked.owns_name s unnamed) owns

theorem Apart.symm {s t : σ} (apart : Apart s t) : Apart t s := fun name owns owns' => apart name owns' owns

theorem obeyed_units {planned : List (Binding σ × Plan)} {units : List (List Request)} {held : Holdings}
    (plans : ∀ p ∈ planned, p.1.plan = .ok p.2)
    (made : List.Forall₂ (fun p unit => unit? p = some unit) planned units)
    (agrees : ∀ p ∈ planned, Tracked.Agrees held p.1.statement)
    (apart : planned.Pairwise fun p q => Apart p.1.statement q.1.statement) : Obeyed held units.flatten := by
  induction made generalizing held with
  | nil => exact trivial
  | @cons p unit planned units first _ ih =>
    obtain ⟨messages, isUnit, rfl⟩ := unit?_some first
    obtain ⟨others, apart⟩ := List.pairwise_cons.1 apart
    refine Obeyed.append (obeyed_unit (agrees p (by simp)) (plan_ok (plans p (by simp))) isUnit) ?_
    intro held' passes
    refine ih (fun q member => plans q (by simp [member])) (fun q member => ?_) apart
    refine Tracked.agrees_frame (agrees q (by simp [member])) fun name owns => ?_
    have concerns : ∀ r ∈ p.1.requests messages, Concerns (Descriptor.name p.1.statement).text
        (String.ofList (Descriptor.sql p.1.statement)) r.message := by
      intro r inside
      obtain ⟨m, found, rfl⟩ := List.mem_map.1 inside
      exact isUnit.concerns m found
    exact passes.frame concerns ((others q member).ne_name owns)

theorem obeyed_requests {bindings : List (Binding σ)} {requests : List Request} {held : Holdings}
    (sent : requests? bindings = some requests)
    (agrees : ∀ b ∈ bindings, Tracked.Agrees held b.statement)
    (apart : bindings.Pairwise fun a b => Apart a.statement b.statement) : Obeyed held requests := by
  obtain ⟨planned, units, -, rfl, plans, made, rfl, -⟩ := exchange_of_requests sent
  refine obeyed_units plans made (fun p member => agrees p.1 (List.mem_map_of_mem member)) ?_
  rw [List.pairwise_map] at apart
  exact apart

end

end ExtendedQuery
