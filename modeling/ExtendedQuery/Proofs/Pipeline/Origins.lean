import ExtendedQuery.Proofs.Pipeline.Acknowledged
import ExtendedQuery.Proofs.Server.Describing

/-!
# Where types and fields come from

The types and fields of a statement are the ones that the server had described for some types that the statement
was parsed with (`Accounted`). After its messages were served it is parsed and described (`Known`), and a statement
that the server keeps was described for the types of its last parse.
-/

namespace ExtendedQuery

open Wire Connection

/-! ## Where the records come from -/

/-- The types of the last parse of a statement, and those of the last parse before it was described. -/
structure Origin where
  parsed : Option (List Oid)
  described : Option (List Oid)
  deriving DecidableEq, Repr

def Origin.noted (plan : Plan) (o : Origin) : BackendMessage → Origin
  | .parseComplete => { o with parsed := some plan.types }
  | .rowDescription _ _ | .noData => { o with described := o.parsed }
  | _ => o

abbrev Entry := Binding Statement × Origin

def Entry.noted (plan : Plan) (x : Entry) (reply : BackendMessage) : Entry :=
  (x.1.noted plan reply, x.2.noted plan reply)

def Statement.declared (s : Statement) (types : List Oid) : Declaration := ⟨String.ofList s.sql, types⟩

def Statement.Matches (describe : Describer) (s : Statement) (types : List Oid) : Prop :=
  s.types = (describe (s.declared types)).types ∧ s.fields = (describe (s.declared types)).fields

structure Accounted (describe : Describer) (held : Declarations) (s : Statement) (o : Origin) : Prop where
  described : s.described = true → ∃ types, o.described = some types ∧ s.Matches describe types
  prepared : s.prepared.isSome → ∃ types, o.parsed = some types ∧ held s.name.text = some (s.declared types) ∧
    (s.described = true → o.described = some types)
  named : s.name.isUnnamed = false → s.prepared = none → s.described = false
  unnamed : s.name.isUnnamed = true → s.prepared = none

def Stands (held : Declarations) (s : Statement) (o : Origin) : Prop :=
  ∃ types, o.parsed = some types ∧ held s.name.text = some (s.declared types)

def Due (plan : Plan) (held : Declarations) (s : Statement) (o : Origin) : FrontendMessage → Prop
  | .parse m => m.types = plan.types ∧ (s.name.isUnnamed = false → s.described = false)
  | .describe _ _ =>
    s.described = false ∧ Stands held s o ∧ (s.name.isUnnamed = false → s.prepared.isSome)
  | _ => True

section

variable {describe : Describer} {held held' : Declarations} {s : Statement} {o : Origin}

theorem Accounted.isNamed (accounted : Accounted describe held s o) (prepared : s.prepared.isSome) :
    s.name.isUnnamed = false := by
  rw [← Bool.not_eq_true]
  intro unnamed
  rw [accounted.unnamed unnamed] at prepared
  cases prepared

theorem Accounted.frame (accounted : Accounted describe held s o)
    (same : s.name.isUnnamed = false → held' s.name.text = held s.name.text) : Accounted describe held' s o := by
  constructor
  · exact accounted.described
  · intro prepared
    rw [same (accounted.isNamed prepared)]
    exact accounted.prepared prepared
  · exact accounted.named
  · exact accounted.unnamed

theorem Accounted.close (accounted : Accounted describe held s o) (now : Option Declaration) :
    Accounted describe (Function.update held s.name.text now) (s.setPrepared none) o := by
  cases unnamed : s.name.isUnnamed with
  | true =>
    rw [Statement.setPrepared_of_unnamed unnamed]
    apply accounted.frame
    simp [unnamed]
  | false =>
    rw [Statement.setPrepared_of_named unnamed]
    constructor
    · simp
    · intro prepared
      cases prepared
    · simp
    · simp [unnamed]

theorem Accounted.parse (accounted : Accounted describe held s o) (types : List Oid)
    (undescribed : s.name.isUnnamed = false → s.described = false) :
    Accounted describe (Function.update held s.name.text (some (s.declared types))) (s.setPrepared (some types))
      { o with parsed := some types } := by
  cases unnamed : s.name.isUnnamed with
  | true =>
    rw [Statement.setPrepared_of_unnamed unnamed]
    constructor
    · exact accounted.described
    · intro prepared
      rw [accounted.unnamed unnamed] at prepared
      cases prepared
    · exact accounted.named
    · exact accounted.unnamed
  | false =>
    rw [Statement.setPrepared_of_named unnamed, undescribed unnamed]
    constructor
    · simp
    · intro _
      exact ⟨types, rfl, Function.update_self _ _ _, by simp⟩
    · simp
    · simp [unnamed]

theorem Accounted.types (accounted : Accounted describe held s o) (undescribed : s.described = false)
    (types : List Oid) : Accounted describe held (s.setTypes types) o := by
  have none {declared : Option (List Oid)} (missing : declared.map (Oid.fill · types) = none) : declared = none :=
    Option.map_eq_none_iff.1 missing
  constructor
  · intro described
    change s.described = true at described
    rw [undescribed] at described
    cases described
  · intro prepared
    change (s.prepared.map (Oid.fill · types)).isSome at prepared
    rw [Option.isSome_map] at prepared
    exact accounted.prepared prepared
  · intro named unprepared
    exact accounted.named named (none unprepared)
  · intro unnamed
    change s.prepared.map (Oid.fill · types) = Option.none
    rw [accounted.unnamed unnamed]
    rfl

theorem Accounted.fields {types : List Oid} (accounted : Accounted describe held s o)
    (parsed : o.parsed = some types) (named : s.name.isUnnamed = false → s.prepared.isSome)
    (reported : s.types = (describe (s.declared types)).types) :
    Accounted describe held (s.setFields (describe (s.declared types)).fields) { o with described := o.parsed } := by
  constructor
  · intro _
    exact ⟨types, parsed, reported, rfl⟩
  · intro prepared
    obtain ⟨types', parsed', found, -⟩ := accounted.prepared prepared
    exact ⟨types', parsed', found, fun _ => parsed'⟩
  · intro isNamed unprepared
    have prepared := named isNamed
    change s.prepared = none at unprepared
    rw [unprepared] at prepared
    cases prepared
  · exact accounted.unnamed

end

/-! ## One message -/

section

variable {describe : Describer} {held held' : Declarations} {plan : Plan} {x : Entry}
  {message : FrontendMessage} {replies : List BackendMessage}

theorem bare_foldl_entry (plan : Plan) (x : Entry) (replies : List BackendMessage) :
    (replies.foldl (Entry.noted plan) x).1.statement.bare = x.1.statement.bare := by
  induction replies generalizing x with
  | nil => rfl
  | cons reply replies ih =>
    rw [List.foldl_cons, ih]
    exact bare_noted plan x.1 reply

theorem entry_noted_of_completes {reply : BackendMessage} (completes : reply.completes = true) :
    Entry.noted plan x reply = x := by
  cases reply with
  | commandComplete | emptyQueryResponse | portalSuspended => rfl
  | _ => cases completes

theorem entry_noted_rows {rows : List BackendMessage} (each : ∀ row ∈ rows, IsRow row) :
    rows.foldl (Entry.noted plan) x = x := by
  induction rows with
  | nil => rfl
  | cons row rows ih =>
    obtain ⟨columns, body, rfl⟩ := each row (by simp)
    exact ih fun other member => each other (by simp [member])

theorem entry_noted_types {count : UInt16} {body : Bytes} {types : List Oid}
    (decoded : decodeOids count body = .ok types) :
    Entry.noted plan x (.parameterDescription count body) =
      (⟨x.1.statement.setTypes types, x.1.parameters.resolve types⟩, x.2) := by
  unfold Entry.noted Binding.noted
  dsimp only
  rw [decoded]
  rfl

theorem entry_noted_fields {fields : List Field} {result : BackendMessage} (results : Results fields result) :
    Entry.noted plan x result =
      (⟨x.1.statement.setFields fields, x.1.parameters⟩, { x.2 with described := x.2.parsed }) := by
  cases results with
  | noData => rfl
  | fields decoded =>
    unfold Entry.noted Binding.noted
    dsimp only
    rw [decoded]
    rfl

theorem accounted_of_serves (accounted : Accounted describe held x.1.statement x.2)
    (concerns : Concerns x.1.statement.name.text (String.ofList x.1.statement.sql) message)
    (due : Due plan held x.1.statement x.2 message) (serves : Serves describe held message replies held') :
    Accounted describe held' (replies.foldl (Entry.noted plan) x).1.statement
      (replies.foldl (Entry.noted plan) x).2 := by
  cases serves with
  | close =>
    cases concerns
    exact accounted.close none
  | @parse m =>
    obtain ⟨name, sql⟩ := concerns
    obtain ⟨types, undescribed⟩ := due
    rw [name, sql, types]
    exact accounted.parse plan.types undescribed
  | @describe _ d _ _ _ found decoded results =>
    cases concerns
    obtain ⟨undescribed, ⟨types, parsed, stands⟩, named⟩ := due
    rw [stands] at found
    cases found
    rw [List.foldl_cons, List.foldl_cons, List.foldl_nil, entry_noted_types decoded, entry_noted_fields results]
    apply Accounted.fields (accounted.types undescribed _) parsed
    · intro isNamed
      have prepared := named isNamed
      change (x.1.statement.prepared.map _).isSome
      rwa [Option.isSome_map]
    · rfl
  | bind => exact accounted
  | execute each completes =>
    rw [List.foldl_append, entry_noted_rows each, List.foldl_cons, List.foldl_nil,
      entry_noted_of_completes completes.completes]
    exact accounted
  | sync => exact accounted

theorem accounted_of_starts (accounted : Accounted describe held x.1.statement x.2)
    (due : Due plan held x.1.statement x.2 message) {begun : List BackendMessage}
    (starts : Starts describe held message begun) :
    Accounted describe held (begun.foldl (Entry.noted plan) x).1.statement
      (begun.foldl (Entry.noted plan) x).2 := by
  cases starts with
  | nothing => exact accounted
  | describe found decoded =>
    rw [List.foldl_cons, List.foldl_nil, entry_noted_types decoded]
    exact accounted.types due.1 _
  | execute each =>
    rw [entry_noted_rows each]
    exact accounted

/-! ## One statement -/

structure Known (s : Statement) (o : Origin) : Prop where
  described : s.described = true
  parsed : o.parsed.isSome
  prepared : s.name.isUnnamed = false → s.prepared.isSome

/-- The messages of one statement come when they are due, whatever the server replies, and then the statement is
parsed and described. -/
def Walk (describe : Describer) (plan : Plan) : Declarations → Entry → List FrontendMessage → Prop
  | _, x, [] => Known x.1.statement x.2
  | held, x, message :: later =>
    Due plan held x.1.statement x.2 message ∧ ∀ replies held', Serves describe held message replies held' →
      Walk describe plan held' (replies.foldl (Entry.noted plan) x) later

theorem concerns_of_bare {y : Entry} (same : y.1.statement.bare = x.1.statement.bare)
    {messages : List FrontendMessage}
    (concerns : ∀ m ∈ messages, Concerns x.1.statement.name.text (String.ofList x.1.statement.sql) m) :
    ∀ m ∈ messages, Concerns y.1.statement.name.text (String.ofList y.1.statement.sql) m := by
  obtain ⟨name, sql, -⟩ := Tracked.eq_of_bare (s := y.1.statement) (t := x.1.statement) same
  change y.1.statement.name = x.1.statement.name at name
  change y.1.statement.sql = x.1.statement.sql at sql
  rwa [name, sql]

variable {messages : List FrontendMessage} {last : Declarations}

theorem Walk.serves_all (walk : Walk describe plan held x messages)
    (accounted : Accounted describe held x.1.statement x.2)
    (concerns : ∀ m ∈ messages, Concerns x.1.statement.name.text (String.ofList x.1.statement.sql) m)
    (serves : ServesAll describe held messages replies last) :
    Accounted describe last (replies.foldl (Entry.noted plan) x).1.statement
        (replies.foldl (Entry.noted plan) x).2 ∧
      Known (replies.foldl (Entry.noted plan) x).1.statement (replies.foldl (Entry.noted plan) x).2 := by
  induction serves generalizing x with
  | nil => exact ⟨accounted, walk⟩
  | @cons _ _ _ _ _ replies _ one _ ih =>
    obtain ⟨due, later⟩ := walk
    have accounted' := accounted_of_serves accounted (concerns _ (by simp)) due one
    have concerns' := concerns_of_bare (bare_foldl_entry plan x replies) (List.forall_mem_of_forall_mem_cons concerns)
    rw [List.foldl_append]
    exact ih (later _ _ one) accounted' concerns'

theorem Walk.serves_part (walk : Walk describe plan held x messages)
    (accounted : Accounted describe held x.1.statement x.2)
    (concerns : ∀ m ∈ messages, Concerns x.1.statement.name.text (String.ofList x.1.statement.sql) m)
    (serves : ServesPart describe held messages replies last) :
    Accounted describe last (replies.foldl (Entry.noted plan) x).1.statement
      (replies.foldl (Entry.noted plan) x).2 := by
  induction serves generalizing x with
  | stop starts => exact accounted_of_starts accounted walk.1 starts
  | @cons _ _ _ _ _ replies _ one _ ih =>
    obtain ⟨due, later⟩ := walk
    have accounted' := accounted_of_serves accounted (concerns _ (by simp)) due one
    have concerns' := concerns_of_bare (bare_foldl_entry plan x replies) (List.forall_mem_of_forall_mem_cons concerns)
    rw [List.foldl_append]
    exact ih (later _ _ one) accounted' concerns'

theorem walk_bind {bind : Bind} (known : Known x.1.statement x.2) :
    Walk describe plan held x [.bind bind, .execute "" 0] := by
  refine ⟨trivial, ?_⟩
  rintro _ held' serves
  cases serves
  refine ⟨trivial, ?_⟩
  rintro _ held' serves
  cases serves with
  | execute each completes =>
    change Known _ _
    rw [List.foldl_append, entry_noted_rows each, List.foldl_cons, List.foldl_nil,
      entry_noted_of_completes completes.completes]
    exact known

structure Parsed (plan : Plan) (held : Declarations) (x : Entry) : Prop where
  stands : Stands held x.1.statement x.2
  prepared : x.1.statement.name.isUnnamed = false → x.1.statement.prepared.isSome
  described : x.1.statement.described = !plan.describe

theorem walk_describe {bind : Bind} {name : String} (parsed : Parsed plan held x) :
    Walk describe plan held x
      ((if plan.describe then [.describe statementTarget name] else []) ++ [.bind bind, .execute "" 0]) := by
  obtain ⟨types, declared, stands⟩ := parsed.stands
  have described := parsed.described
  cases wanted : plan.describe with
  | false =>
    rw [wanted] at described
    exact walk_bind ⟨described, Option.isSome_of_eq_some declared, parsed.prepared⟩
  | true =>
    rw [wanted] at described
    refine ⟨⟨described, parsed.stands, parsed.prepared⟩, ?_⟩
    rintro _ held' serves
    cases serves with
    | describe _ decoded results =>
      apply walk_bind
      rw [List.foldl_cons, List.foldl_cons, List.foldl_nil, entry_noted_types decoded, entry_noted_fields results]
      constructor
      · rfl
      · exact Option.isSome_of_eq_some declared
      · intro named
        have prepared := parsed.prepared named
        change (x.1.statement.prepared.map _).isSome
        rwa [Option.isSome_map]

theorem walk_parse {parse : Parse} {later : List FrontendMessage}
    (name : parse.name = x.1.statement.name.text) (sql : parse.sql = String.ofList x.1.statement.sql)
    (types : parse.types = plan.types) (described : x.1.statement.described = !plan.describe)
    (undescribed : plan.parse = true → x.1.statement.name.isUnnamed = false → x.1.statement.described = false)
    (stands : plan.parse = false → Parsed plan held x)
    (next : ∀ {held y}, Parsed plan held y → Walk describe plan held y later) :
    Walk describe plan held x ((if plan.parse then [.parse parse] else []) ++ later) := by
  cases wanted : plan.parse with
  | false => exact next (stands wanted)
  | true =>
    refine ⟨⟨types, undescribed wanted⟩, ?_⟩
    rintro _ held' serves
    cases serves
    apply next
    change Parsed plan _ (⟨x.1.statement.setPrepared (some plan.types), x.1.parameters⟩,
      { x.2 with parsed := some plan.types })
    rw [name, sql, types]
    cases unnamed : x.1.statement.name.isUnnamed with
    | true =>
      rw [Statement.setPrepared_of_unnamed unnamed]
      constructor
      · exact ⟨plan.types, rfl, Function.update_self _ _ _⟩
      · simp [unnamed]
      · exact described
    | false =>
      rw [Statement.setPrepared_of_named unnamed]
      constructor
      · exact ⟨plan.types, rfl, Function.update_self _ _ _⟩
      · simp
      · rw [← described]
        simp

theorem prepared_of_reused {b : Binding Statement} (planned : IsPlanOf b plan) (reused : plan.parse = false) :
    b.statement.prepared.isSome := by
  have prepared := planned.parse.symm.trans reused
  rw [Bool.not_eq_false', Descriptor.isPreparedFor] at prepared
  change (Descriptor.prepared b.statement).isSome
  cases declared : Descriptor.prepared b.statement with
  | none =>
    rw [declared] at prepared
    cases prepared
  | some => rfl

theorem IsPlanOf.marks {b : Binding Statement} (planned : IsPlanOf b plan) :
    plan.close = (plan.parse && b.statement.prepared.isSome) ∧
      plan.describe = (plan.close || !b.statement.described) := ⟨planned.close, planned.describe⟩

theorem walk_unit {b : Binding Statement} {o : Origin} (accounted : Accounted describe held b.statement o)
    (planned : IsPlanOf b plan) (unit : IsUnitOf b plan messages) :
    Walk describe plan held (b, o) messages := by
  obtain ⟨closes, describes⟩ := planned.marks
  cases unit with
  | @mk parse bind parseName parseSql parseTypes bindName =>
    rw [List.append_assoc, List.append_assoc]
    cases wanted : plan.close with
    | true =>
      rw [wanted] at describes closes
      obtain ⟨parses, prepared⟩ := Bool.and_eq_true_iff.1 closes.symm
      refine ⟨trivial, ?_⟩
      rintro _ held' serves
      cases serves
      change Walk describe plan _ (⟨b.statement.setPrepared none, b.parameters⟩, o) _
      -- Only a kept statement is closed, and it is not described any more.
      rw [Statement.setPrepared_of_named (accounted.isNamed prepared)]
      apply walk_parse parseName parseSql parseTypes
      · simp [describes]
      · simp
      · intro reused
        rw [parses] at reused
        cases reused
      · exact walk_describe
    | false =>
      rw [wanted] at describes closes
      rw [Bool.false_or] at describes
      -- What is not parsed again stands from its last parse.
      apply walk_parse parseName parseSql parseTypes
      · rw [describes, Bool.not_not]
      · intro parses isNamed
        rw [parses, Bool.true_and] at closes
        apply accounted.named isNamed
        simpa using closes.symm
      · intro reused
        have prepared := prepared_of_reused planned reused
        obtain ⟨types, parsed, found, -⟩ := accounted.prepared prepared
        constructor
        · exact ⟨types, parsed, found⟩
        · intro _
          exact prepared
        · rw [describes, Bool.not_not]
      · exact walk_describe

/-! ## Several statements -/

variable {entries : List (Entry × Plan)} {units : List (List Request)}

theorem owns_noted (plan : Plan) (x : Entry) (reply : BackendMessage) :
    (x.noted plan reply).1.statement.Owns = x.1.statement.Owns := by
  have same := congrArg Tracked.Owns (bare_noted plan x.1 reply)
  exact same

theorem owns_foldl_noted (plan : Plan) (x : Entry) (replies : List BackendMessage) :
    (replies.foldl (Entry.noted plan) x).1.statement.Owns = x.1.statement.Owns := by
  have same := congrArg Statement.Owns (bare_foldl_entry plan x replies)
  exact same

theorem Accounted.apart {s t : Statement} {o : Origin} (accounted : Accounted describe held s o) (apart : Apart t s)
    (frame : ∀ other, other ≠ t.name.text → held' other = held other) : Accounted describe held' s o := by
  apply accounted.frame
  intro named
  apply frame
  exact apart.ne_name ⟨named, rfl⟩

theorem Accounted.behind (accounted : Accounted describe held (replies.foldl (Entry.noted plan) x).1.statement
      (replies.foldl (Entry.noted plan) x).2)
    (made : List.Forall₂ (fun e unit => unit? (e.1.1, e.2) = some unit) entries units)
    (apart : ∀ e ∈ entries, Apart x.1.statement e.1.1.statement)
    (frame : ∀ other, (∀ m ∈ pipelineOf units.flatten, Avoids other m) → held' other = held other) :
    Accounted describe held' (replies.foldl (Entry.noted plan) x).1.statement
      (replies.foldl (Entry.noted plan) x).2 := by
  apply accounted.frame
  intro named
  apply frame
  have planned : List.Forall₂ (fun p unit => unit? p = some unit) (entries.map (Prod.map Prod.fst id)) units :=
    List.forall₂_map_left_iff.2 made
  apply avoids_pipeline planned
  intro p among
  obtain ⟨e, inside, rfl⟩ := List.mem_map.1 among
  apply (apart e inside).symm.ne_name
  change x.1.statement.Owns _
  rw [← owns_foldl_noted plan x replies]
  exact ⟨named, rfl⟩

theorem accounted_units (made : List.Forall₂ (fun e unit => unit? (e.1.1, e.2) = some unit) entries units)
    (plans : ∀ e ∈ entries, e.1.1.plan = .ok e.2)
    (accounted : ∀ e ∈ entries, Accounted describe held e.1.1.statement e.1.2)
    (apart : entries.Pairwise fun e f => Apart e.1.1.statement f.1.1.statement)
    (serves : ServesAll describe held (pipelineOf units.flatten) replies last) :
    ∀ x ∈ sharedOut Entry.noted entries replies, Accounted describe last x.1.statement x.2 ∧
      Known x.1.statement x.2 := by
  induction made generalizing held replies with
  | nil => simp [sharedOut]
  | @cons e unit entries units first made ih =>
    obtain ⟨messages, isUnit, rfl⟩ := unit?_some first
    obtain ⟨others, apart⟩ := List.pairwise_cons.1 apart
    rw [pipelineOf_cons] at serves
    obtain ⟨middle, replies, more, front, back, rfl⟩ := serves.of_append
    obtain ⟨counts, answered⟩ := front.answered
    have walk := walk_unit (accounted e (by simp)) (plan_ok (plans e (by simp))) isUnit
    obtain ⟨accounted', known⟩ := walk.serves_all (accounted e (by simp)) isUnit.concerns front
    rw [sharedOut_unit entry_noted_of_completes isUnit answered]
    intro x member
    rcases List.mem_cons.1 member with rfl | inside
    · exact ⟨accounted'.behind made others fun other => back.frame, known⟩
    · apply ih _ _ apart back x inside
      · intro f among
        exact plans f (by simp [among])
      · intro f among
        apply (accounted f (by simp [among])).apart (others f among)
        intro other different
        exact front.frame (isUnit.avoids different)

theorem accounted_units_of_part
    (made : List.Forall₂ (fun e unit => unit? (e.1.1, e.2) = some unit) entries units)
    (plans : ∀ e ∈ entries, e.1.1.plan = .ok e.2)
    (accounted : ∀ e ∈ entries, Accounted describe held e.1.1.statement e.1.2)
    (apart : entries.Pairwise fun e f => Apart e.1.1.statement f.1.1.statement)
    (serves : ServesPart describe held (pipelineOf units.flatten) replies last) :
    ∀ x ∈ sharedOut Entry.noted entries replies, Accounted describe last x.1.statement x.2 := by
  induction made generalizing held replies with
  | nil => simp [sharedOut]
  | @cons e unit entries units first made ih =>
    obtain ⟨messages, isUnit, rfl⟩ := unit?_some first
    obtain ⟨others, apart⟩ := List.pairwise_cons.1 apart
    have walk := walk_unit (accounted e (by simp)) (plan_ok (plans e (by simp))) isUnit
    rw [pipelineOf_cons] at serves
    rcases serves.of_append with part | ⟨middle, replies, more, front, back, rfl⟩
    · obtain ⟨next, rest, counts, answered⟩ := part.answered
      rw [sharedOut_begun isUnit answered]
      intro x member
      rcases List.mem_cons.1 member with rfl | inside
      · exact walk.serves_part (accounted e (by simp)) isUnit.concerns part
      · obtain ⟨f, among, rfl⟩ := List.mem_map.1 inside
        apply (accounted f (by simp [among])).apart (others f among)
        intro other different
        exact part.frame (isUnit.avoids different)
    · obtain ⟨counts, answered⟩ := front.answered
      obtain ⟨accounted', -⟩ := walk.serves_all (accounted e (by simp)) isUnit.concerns front
      rw [sharedOut_unit entry_noted_of_completes isUnit answered]
      intro x member
      rcases List.mem_cons.1 member with rfl | inside
      · exact accounted'.behind made others fun other => back.frame
      · apply ih _ _ apart back x inside
        · intro f among
          exact plans f (by simp [among])
        · intro f among
          apply (accounted f (by simp [among])).apart (others f among)
          intro other different
          exact front.frame (isUnit.avoids different)

end

/-! ## Statements of a query -/

def Origin.acknowledged (bindings : List (Binding Statement)) (origins : List Origin)
    (replies : List BackendMessage) : List Origin :=
  match bindings.mapM Binding.plan with
  | .ok plans => sharedOut Origin.noted (origins.zip plans) replies
  | .error _ => origins

section

variable {describe : Describer} {held last : Declarations} {bindings : List (Binding Statement)}
  {origins : List Origin} {requests : List Request} {replies : List BackendMessage}

structure IsEntered (entries : List (Entry × Plan)) (bindings : List (Binding Statement)) (origins : List Origin) :
    Prop where
  bindings : entries.map (·.1.1) = bindings
  origins : entries.map (·.1.2) = origins
  plans : ∀ e ∈ entries, e.1.1.plan = .ok e.2

theorem IsEntered.acknowledged {entries : List (Entry × Plan)} (entered : IsEntered entries bindings origins)
    (replies : List BackendMessage) :
    ExtendedQuery.acknowledged bindings replies = (sharedOut Entry.noted entries replies).map (·.1) ∧
      Origin.acknowledged bindings origins replies = (sharedOut Entry.noted entries replies).map (·.2) := by
  have planned : (entries.map (Prod.map Prod.fst id)).map (·.1) = bindings := by
    rw [List.map_map]
    exact entered.bindings
  have plans : ∀ p ∈ entries.map (Prod.map Prod.fst id), p.1.plan = .ok p.2 := by
    intro p member
    obtain ⟨e, inside, rfl⟩ := List.mem_map.1 member
    exact entered.plans e inside
  constructor
  · rw [← planned, acknowledged_of_plans plans]
    exact (sharedOut_map Prod.fst (fun _ _ _ => rfl) entries replies).symm
  · rw [← planned, Origin.acknowledged, mapM_plan plans, ← entered.origins, List.map_map]
    dsimp only
    rw [List.zip_map']
    exact (sharedOut_map Prod.snd (fun _ _ _ => rfl) entries replies).symm

theorem exists_entered (sent : requests? bindings = some requests) (length : origins.length = bindings.length) :
    ∃ entries units, IsEntered entries bindings origins ∧ requests = units.flatten ∧
      List.Forall₂ (fun (e : Entry × Plan) unit => unit? (e.1.1, e.2) = some unit) entries units := by
  obtain ⟨planned, units, -, rfl, plans, made, rfl, -⟩ := exchange_of_requests sent
  rw [List.length_map] at length
  have first := List.map_fst_zip length.ge
  have second := List.map_snd_zip length.le
  refine ⟨(planned.zip origins).map fun p => ((p.1.1, p.2), p.1.2), units, ⟨?_, ?_, ?_⟩, rfl, ?_⟩
  · conv_rhs => rw [← first]
    rw [List.map_map, List.map_map]
    rfl
  · conv_rhs => rw [← second]
    rw [List.map_map]
    rfl
  · intro e member
    obtain ⟨p, inside, rfl⟩ := List.mem_map.1 member
    exact plans p.1 (List.of_mem_zip inside).1
  · rw [← first, List.forall₂_map_left_iff] at made
    exact List.forall₂_map_left_iff.2 made

structure Accounts (describe : Describer) (held : Declarations) (statements : List Statement)
    (origins : List Origin) : Prop where
  length : origins.length = statements.length
  each : ∀ x ∈ statements.zip origins, Accounted describe held x.1 x.2
  apart : statements.Pairwise Apart

theorem Accounts.entries (accounts : Accounts describe held (bindings.map (·.statement)) origins)
    {entries : List (Entry × Plan)} (entered : IsEntered entries bindings origins) :
    (∀ e ∈ entries, Accounted describe held e.1.1.statement e.1.2) ∧
      entries.Pairwise fun e f => Apart e.1.1.statement f.1.1.statement := by
  have each := accounts.each
  have apart := accounts.apart
  rw [← entered.bindings, ← entered.origins, List.map_map, List.zip_map'] at each
  rw [← entered.bindings, List.map_map, List.pairwise_map] at apart
  constructor
  · intro e member
    exact each _ (List.mem_map_of_mem member)
  · exact apart

theorem Accounts.of_entries (accounts : Accounts describe held (bindings.map (·.statement)) origins)
    {entries : List (Entry × Plan)} (entered : IsEntered entries bindings origins)
    (accounted : ∀ x ∈ sharedOut Entry.noted entries replies, Accounted describe last x.1.statement x.2) :
    Accounts describe last ((acknowledged bindings replies).map (·.statement))
      (Origin.acknowledged bindings origins replies) := by
  obtain ⟨statements, others⟩ := entered.acknowledged replies
  rw [statements, others, List.map_map]
  constructor
  · rw [List.length_map, List.length_map]
  · rw [List.zip_map']
    intro x member
    obtain ⟨y, inside, rfl⟩ := List.mem_map.1 member
    exact accounted y inside
  · have owns := map_sharedOut (fun x : Entry => x.1.statement.Owns) owns_noted entries replies
    have apart : (entries.map fun e => e.1.1.statement.Owns).Pairwise fun a b => ∀ name, a name → ¬ b name :=
      List.pairwise_map.2 (accounts.entries entered).2
    rw [← owns, List.pairwise_map] at apart
    exact List.pairwise_map.2 apart

theorem Accounts.served (accounts : Accounts describe held (bindings.map (·.statement)) origins)
    (sent : requests? bindings = some requests)
    (serves : ServesAll describe held (pipelineOf requests) replies last) :
    Accounts describe last ((acknowledged bindings replies).map (·.statement))
        (Origin.acknowledged bindings origins replies) ∧
      ∀ x ∈ ((acknowledged bindings replies).map (·.statement)).zip
          (Origin.acknowledged bindings origins replies), Known x.1 x.2 := by
  obtain ⟨entries, units, entered, rfl, made⟩ :=
    exists_entered sent (accounts.length.trans (List.length_map _))
  obtain ⟨accounted, apart⟩ := accounts.entries entered
  have after := accounted_units made entered.plans accounted apart serves
  constructor
  · exact accounts.of_entries entered fun x member => (after x member).1
  · obtain ⟨statements, others⟩ := entered.acknowledged replies
    rw [statements, others, List.map_map, List.zip_map']
    intro x member
    obtain ⟨y, inside, rfl⟩ := List.mem_map.1 member
    exact (after y inside).2

theorem Accounts.refused (accounts : Accounts describe held (bindings.map (·.statement)) origins)
    (sent : requests? bindings = some requests)
    (serves : ServesPart describe held (pipelineOf requests) replies last) :
    Accounts describe last ((acknowledged bindings replies).map (·.statement))
      (Origin.acknowledged bindings origins replies) := by
  obtain ⟨entries, units, entered, rfl, made⟩ :=
    exists_entered sent (accounts.length.trans (List.length_map _))
  obtain ⟨accounted, apart⟩ := accounts.entries entered
  have after := accounted_units_of_part made entered.plans accounted apart serves
  exact accounts.of_entries entered after

end

end ExtendedQuery
