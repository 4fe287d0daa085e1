import ExtendedQuery.Proofs.Pipeline.Origins
import ExtendedQuery.Proofs.Session.Declared

/-!
# Reported types and fields

A statement that the server keeps is described again whenever it is parsed with other types, so after an
execution its types and fields are the ones of the declaration that the server has. The unnamed statement is
parsed for every execution and described only once, and its types and fields stay the ones of the types with
which it was parsed then (`served_metadata`, `served_metadata_stale`).
-/

namespace ExtendedQuery

open Wire Connection

namespace Query

def statements : Query → List Statement
  | .single s => [s]
  | .batched _ => []
  | .composite statements => statements

def bindings (query : Query) (parameters : Parameters) : List (Binding Statement) :=
  match query, parameters with
  | .single s, .single list => [⟨s, list⟩]
  | .composite statements, .composite lists => List.zipWith Binding.mk statements lists
  | _, _ => []

def IsBatched : Query → Prop
  | .batched _ => True
  | _ => False

variable {describe : Describer} {held held' last : Declarations} {query : Query} {parameters : Parameters}
  {c : Connection} {requests : List Request} {replies : List BackendMessage} {origins : List Origin}

theorem map_statement_bindings (unbatched : ¬ query.IsBatched)
    (sent : query.pipelines parameters = [requests]) :
    requests? (query.bindings parameters) = some requests ∧
      (query.bindings parameters).map (·.statement) = query.statements := by
  cases pairing query parameters with
  | single s list => exact ⟨requests_of_pipelines sent, rfl⟩
  | batched => exact absurd trivial unbatched
  | composite length =>
    rw [pipelines_composite length] at sent
    exact ⟨requests_of_pipelines sent, map_statement_zipWith length⟩
  | refused e none =>
    rw [none] at sent
    cases sent

theorem length_acknowledged {σ : Type} [Descriptor σ] (bindings : List (Binding σ))
    (replies : List BackendMessage) :
    (ExtendedQuery.acknowledged bindings replies).length = bindings.length := by
  unfold ExtendedQuery.acknowledged
  split
  · rename_i plans planned
    obtain ⟨same, -⟩ := mapM_ok planned
    have shared := @map_sharedOut _ _ Binding.noted (fun _ : Binding σ => ()) (fun _ _ _ => rfl)
      (bindings.zip plans) replies
    have lengths := congrArg List.length shared
    rw [List.length_map, List.length_map] at lengths
    rw [lengths, ← List.length_map (fun p : Binding σ × Plan => p.1), same]
  · rfl

theorem statements_acknowledged (unbatched : ¬ query.IsBatched) (sent : query.pipelines parameters = [requests])
    (replies : List BackendMessage) :
    ¬ (query.acknowledged parameters replies).1.IsBatched ∧
      (query.acknowledged parameters replies).1.statements =
        (ExtendedQuery.acknowledged (query.bindings parameters) replies).map (·.statement) := by
  cases pairing query parameters with
  | single s list =>
    refine ⟨id, ?_⟩
    obtain ⟨b, same⟩ := List.length_eq_one_iff.1 (length_acknowledged [⟨s, list⟩] replies)
    unfold acknowledged bindings
    dsimp only
    rw [same]
    rfl
  | batched => exact absurd trivial unbatched
  | composite => exact ⟨id, rfl⟩
  | refused e none =>
    rw [none] at sent
    cases sent

theorem exchange_unsent {σ : Type} [Descriptor σ] {bindings : List (Binding σ)} {c : Connection}
    (unsent : ExtendedQuery.pipelines bindings = [] ∨ c.writable = false) :
    (exchange bindings c).2.1 = bindings := by
  rcases unsent with none | unwritable
  · obtain ⟨e, result⟩ := exchange_of_no_requests (by simpa using none) c
    rw [result]
  · obtain ⟨e, result⟩ := exchange_of_unwritable unwritable bindings
    rw [result]

theorem execute_unsent (unbatched : ¬ query.IsBatched)
    (unsent : query.pipelines parameters = [] ∨ c.writable = false) :
    (query.execute parameters c).query = query := by
  cases pairing query parameters with
  | single s list =>
    have same := exchange_unsent unsent
    unfold execute exchangeOne
    dsimp only
    rw [same]
    rfl
  | batched => exact absurd trivial unbatched
  | composite length =>
    rw [pipelines_composite length] at unsent
    rw [execute_composite length, exchange_unsent unsent, map_statement_zipWith length]
  | refused e none same => rw [same]

theorem fresh_of_prepare {sql : Text} {kept : Bool} {caps : Capabilities} {config : Config}
    {names names' : NameSupply} (prepared : Query.prepare sql kept caps config names = .ok (query, names')) :
    ∀ s ∈ query.statements, s.prepared = none ∧ s.described = false := by
  intro s member
  cases made_of_prepare prepared with
  | single fragments =>
    cases List.mem_singleton.1 member
    exact ⟨rfl, rfl⟩
  | batched => cases member
  | composite statements =>
    obtain ⟨-, made⟩ := NameSupply.takeFor_taken kept statements names
    obtain ⟨fragments, same⟩ := made s member
    rw [same]
    exact ⟨rfl, rfl⟩

theorem apart_of_prepare {sql : Text} {kept : Bool} {caps : Capabilities} {config : Config}
    {names names' : NameSupply} (prepared : Query.prepare sql kept caps config names = .ok (query, names')) :
    query.statements.Pairwise Apart := by
  obtain ⟨taken, -⟩ := prepare_taken prepared
  cases query with
  | single s => exact List.pairwise_singleton _ _
  | batched s => exact List.Pairwise.nil
  | composite statements => exact apart_of_nodup taken.distinct

structure IsServed (describe : Describer) (held last : Declarations) (query : Query) (parameters : Parameters)
    (c : Connection) (replies : List BackendMessage) : Prop where
  writable : c.writable = true
  served : ∃ requests, query.pipelines parameters = [requests] ∧
    ServesAll describe held (pipelineOf requests) replies last
  delivered : ∃ rest, Delivers replies c.incoming rest

/-- An error takes the place of one of the replies to the pipeline of the query. -/
structure IsRefused (describe : Describer) (held last : Declarations) (query : Query) (parameters : Parameters)
    (c : Connection) (begun : List BackendMessage) : Prop where
  writable : c.writable = true
  part : ∃ requests, query.pipelines parameters = [requests] ∧
    ServesPart describe held (pipelineOf requests) begun last
  delivered : ∃ report later rest, .readyForQuery ∉ later ∧
    Delivers (begun ++ .errorResponse report :: (later ++ [.readyForQuery])) c.incoming rest

/-- Executions of a query on a server, with the types that its statements come from. Between them the server may
do anything with other names. -/
inductive Served (describe : Describer) : Query → List Origin → Declarations → Prop
  | prepare {sql : Text} {kept : Bool} {caps : Capabilities} {config : Config} {names names' : NameSupply}
      {query : Query} (held : Declarations) : Query.prepare sql kept caps config names = .ok (query, names') →
      ¬ query.IsBatched → Served describe query (query.statements.map fun _ => ⟨none, none⟩) held
  | elsewhere {query : Query} {origins : List Origin} {held held' : Declarations} :
      Served describe query origins held → (∀ name ∈ query.keptNames, held' name.text = held name.text) →
      Served describe query origins held'
  | unsent {query : Query} {origins : List Origin} {held : Declarations} (parameters : Parameters) (c : Connection) :
      Served describe query origins held → query.pipelines parameters = [] ∨ c.writable = false →
      Served describe (query.execute parameters c).query origins held
  | served {query : Query} {origins : List Origin} {held last : Declarations} {parameters : Parameters}
      {c : Connection} {replies : List BackendMessage} : Served describe query origins held →
      IsServed describe held last query parameters c replies →
      Served describe (query.execute parameters c).query
        (Origin.acknowledged (query.bindings parameters) origins replies) last
  | refused {query : Query} {origins : List Origin} {held last : Declarations} {parameters : Parameters}
      {c : Connection} {begun : List BackendMessage} : Served describe query origins held →
      IsRefused describe held last query parameters c begun →
      Served describe (query.execute parameters c).query
        (Origin.acknowledged (query.bindings parameters) origins begun) last

theorem mem_names (unbatched : ¬ query.IsBatched) {s : Statement} (member : s ∈ query.statements) :
    s.name ∈ query.names := by
  cases query with
  | single => exact List.mem_map_of_mem member
  | batched => exact absurd trivial unbatched
  | composite => exact List.mem_map_of_mem member

theorem accounts_elsewhere (unbatched : ¬ query.IsBatched)
    (accounts : Accounts describe held query.statements origins)
    (same : ∀ name ∈ query.keptNames, held' name.text = held name.text) :
    Accounts describe held' query.statements origins := by
  constructor
  · exact accounts.length
  · intro x member
    apply (accounts.each x member).frame
    intro named
    apply same
    exact mem_keptNames.2 ⟨mem_names unbatched (List.of_mem_zip member).1, named⟩
  · exact accounts.apart

theorem accounts_prepare {sql : Text} {kept : Bool} {caps : Capabilities} {config : Config}
    {names names' : NameSupply} (prepared : Query.prepare sql kept caps config names = .ok (query, names'))
    (held : Declarations) :
    Accounts describe held query.statements (query.statements.map fun _ => ⟨none, none⟩) := by
  constructor
  · exact List.length_map _
  · intro x member
    obtain ⟨unparsed, undescribed⟩ := fresh_of_prepare prepared x.1 (List.of_mem_zip member).1
    constructor
    · simp [undescribed]
    · simp [unparsed]
    · intro _ _
      exact undescribed
    · intro _
      exact unparsed
  · exact apart_of_prepare prepared

theorem IsServed.execute (served : IsServed describe held last query parameters c replies) :
    (∃ counts, (query.execute parameters c).outcome = .ok counts) ∧
      (query.execute parameters c).query = (query.acknowledged parameters replies).1 := by
  obtain ⟨requests, sent, serves⟩ := served.served
  obtain ⟨rest, delivered⟩ := served.delivered
  obtain ⟨counts, answered⟩ := serves.answered
  obtain ⟨outcome, -, -, recorded⟩ := (execute_inStep sent served.writable).acknowledged answered delivered
  exact ⟨⟨counts, outcome⟩, congrArg Prod.fst recorded⟩

theorem IsRefused.execute {begun : List BackendMessage}
    (refused : IsRefused describe held last query parameters c begun) :
    (query.execute parameters c).query = (query.acknowledged parameters begun).1 := by
  obtain ⟨requests, sent, serves⟩ := refused.part
  obtain ⟨report, later, rest, unready, delivered⟩ := refused.delivered
  obtain ⟨next, others, counts, answered⟩ := serves.answered
  obtain ⟨-, -, -, recorded⟩ := (execute_inStep sent refused.writable).refused answered unready delivered
  exact congrArg Prod.fst recorded

theorem IsServed.accounts (served : IsServed describe held last query parameters c replies)
    (unbatched : ¬ query.IsBatched) (accounts : Accounts describe held query.statements origins) :
    ¬ (query.execute parameters c).query.IsBatched ∧
      Accounts describe last (query.execute parameters c).query.statements
        (Origin.acknowledged (query.bindings parameters) origins replies) ∧
      ∀ x ∈ (query.execute parameters c).query.statements.zip
          (Origin.acknowledged (query.bindings parameters) origins replies), Known x.1 x.2 := by
  obtain ⟨-, after⟩ := served.execute
  obtain ⟨requests, sent, serves⟩ := served.served
  obtain ⟨bound, same⟩ := map_statement_bindings unbatched sent
  obtain ⟨unbatched', statements⟩ := statements_acknowledged unbatched sent replies
  rw [← same] at accounts
  rw [after, statements]
  exact ⟨unbatched', accounts.served bound serves⟩

theorem IsRefused.accounts {begun : List BackendMessage}
    (refused : IsRefused describe held last query parameters c begun) (unbatched : ¬ query.IsBatched)
    (accounts : Accounts describe held query.statements origins) :
    ¬ (query.execute parameters c).query.IsBatched ∧
      Accounts describe last (query.execute parameters c).query.statements
        (Origin.acknowledged (query.bindings parameters) origins begun) := by
  have after := refused.execute
  obtain ⟨requests, sent, serves⟩ := refused.part
  obtain ⟨bound, same⟩ := map_statement_bindings unbatched sent
  obtain ⟨unbatched', statements⟩ := statements_acknowledged unbatched sent begun
  rw [← same] at accounts
  rw [after, statements]
  exact ⟨unbatched', accounts.refused bound serves⟩

theorem Served.accounts (history : Served describe query origins held) :
    ¬ query.IsBatched ∧ Accounts describe held query.statements origins := by
  induction history with
  | prepare held prepared unbatched => exact ⟨unbatched, accounts_prepare prepared held⟩
  | elsewhere _ same ih => exact ⟨ih.1, accounts_elsewhere ih.1 ih.2 same⟩
  | unsent parameters c _ unsent ih =>
    rw [execute_unsent ih.1 unsent]
    exact ih
  | served _ served ih =>
    obtain ⟨unbatched, accounts, -⟩ := served.accounts ih.1 ih.2
    exact ⟨unbatched, accounts⟩
  | refused _ refused ih => exact refused.accounts ih.1 ih.2

end Query

section

variable {describe : Describer} {held last : Declarations} {origins : List Origin}

theorem Accounts.exists_accounted {statements : List Statement} (accounts : Accounts describe held statements origins)
    {s : Statement} (member : s ∈ statements) : ∃ o, Accounted describe held s o := by
  have all := List.map_fst_zip accounts.length.ge
  rw [← all] at member
  obtain ⟨x, inside, rfl⟩ := List.mem_map.1 member
  exact ⟨x.2, accounts.each x inside⟩

theorem describe_of_parse {b : Binding Statement} {o : Origin} {plan : Plan}
    (accounted : Accounted describe held b.statement o) (planned : IsPlanOf b plan)
    (named : b.statement.name.isUnnamed = false) (parses : plan.parse = true) : plan.describe = true := by
  obtain ⟨closes, describes⟩ := planned.marks
  rw [describes, closes, parses, Bool.true_and]
  cases prepared : b.statement.prepared with
  | none => rw [accounted.named named prepared]; rfl
  | some => rfl

theorem Known.origin {s : Statement} {o : Origin} (known : Known s o) (accounted : Accounted describe held s o) :
    ∃ parsed described, o = ⟨some parsed, some described⟩ ∧ s.Matches describe described ∧
      (s.name.isUnnamed = false → described = parsed ∧ held s.name.text = some (s.declared parsed)) := by
  obtain ⟨parsed, isParsed⟩ := Option.isSome_iff_exists.1 known.parsed
  obtain ⟨described, isDescribed, matching⟩ := accounted.described known.described
  refine ⟨parsed, described, ?_, matching, ?_⟩
  · rw [← isParsed, ← isDescribed]
  · intro named
    obtain ⟨types, last, found, same⟩ := accounted.prepared (known.prepared named)
    rw [isParsed] at last
    rw [isDescribed] at same
    cases last
    cases same known.described
    exact ⟨rfl, found⟩

end

/-- After a successful execution every statement has the types and fields that the server describes for types it was
parsed with. A statement that is kept is described with every parse, so they are those of its last parse. -/
theorem served_metadata {describe : Describer} {held last : Declarations} {query : Query} {origins : List Origin}
    (history : query.Served describe origins held) {parameters : Parameters} {c : Connection}
    {replies : List BackendMessage} (served : query.IsServed describe held last parameters c replies) :
    (∃ counts, (query.execute parameters c).outcome = .ok counts) ∧
    (∀ b ∈ query.bindings parameters, b.statement.name.isUnnamed = false → ∀ plan, b.plan = .ok plan →
      plan.parse = true → plan.describe = true) ∧
    (Origin.acknowledged (query.bindings parameters) origins replies).length =
      (query.execute parameters c).query.statements.length ∧
    ∀ x ∈ (query.execute parameters c).query.statements.zip
        (Origin.acknowledged (query.bindings parameters) origins replies),
      ∃ parsed described, x.2 = ⟨some parsed, some described⟩ ∧ x.1.Matches describe described ∧
        (x.1.name.isUnnamed = false → described = parsed ∧ last x.1.name.text = some (x.1.declared parsed)) := by
  obtain ⟨unbatched, accounts⟩ := history.accounts
  obtain ⟨-, accounts', known⟩ := served.accounts unbatched accounts
  refine ⟨served.execute.1, ?_, accounts'.length, ?_⟩
  · intro b member named plan planned parses
    obtain ⟨requests, sent, -⟩ := served.served
    obtain ⟨-, same⟩ := Query.map_statement_bindings unbatched sent
    have inside : b.statement ∈ query.statements := by
      rw [← same]
      exact List.mem_map_of_mem member
    obtain ⟨o, accounted⟩ := accounts.exists_accounted inside
    exact describe_of_parse accounted (plan_ok planned) named parses
  · intro x member
    exact (known x member).origin (accounts'.each x member)

def typedColumn (oid : Oid) : Field := ⟨"a", 0, 0, oid, -1, -1, .text⟩

def columnsByType : Describer := fun d => ⟨d.types, d.types.map typedColumn⟩

def noDeclarations : Declarations := fun _ => none

def columnBody : Bytes := [0x61, 0, 0, 0, 0, 0, 0, 0, 0, 0, 0, 23, 255, 255, 255, 255, 255, 255, 0, 0]

def sevenReplies : List BackendMessage :=
  [.parseComplete, .parameterDescription 1 [0, 0, 0, 23], .rowDescription 1 columnBody, .bindComplete,
    .commandComplete "SELECT 1", .readyForQuery]

def sevenDeclared (held : Declarations) (name : String) : Declarations :=
  Function.update held name (some ⟨"SELECT $1", [Oid.int4]⟩)

theorem seven_serves (held : Declarations) (name : String) :
    ServesAll columnsByType held (pipelineOf (sevenRequests name)) sevenReplies (sevenDeclared held name) := by
  have types : decodeOids 1 [0, 0, 0, 23] = .ok (columnsByType ⟨"SELECT $1", [Oid.int4]⟩).types := by rfl
  have fields : decodeFields 1 columnBody = .ok (columnsByType ⟨"SELECT $1", [Oid.int4]⟩).fields := by rfl
  have described : Serves columnsByType (sevenDeclared held name) (.describe statementTarget name)
      [.parameterDescription 1 [0, 0, 0, 23], .rowDescription 1 columnBody] (sevenDeclared held name) :=
    .describe (Function.update_self _ _ _) types (.fields fields)
  have executed : Serves columnsByType (sevenDeclared held name) (.execute "" 0) ([] ++ [.commandComplete "SELECT 1"])
      (sevenDeclared held name) := .execute (by simp) .tag
  exact .cons .parse (.cons described (.cons .bind (.cons executed (.cons .sync .nil))))

def sevenConnection : Connection :=
  ⟨frames [(0x31, []), (0x74, [0, 1, 0, 0, 0, 23]), (0x54, 0 :: 1 :: columnBody), (0x32, []), (0x43, selectTag),
    (0x5A, [0x49])] ++ [], [], true, .default⟩

theorem seven_delivers : Delivers sevenReplies sevenConnection.incoming [] := delivers_frames (by decide) rfl []

def keptQuery : Query := .single (.ofFragments ⟨"SELECT ".toList, [[]]⟩ (.numbered 0))

theorem keptQuery_prepare :
    Query.prepare "SELECT ?".toList true .default .default .fresh = .ok (keptQuery, ⟨1⟩) := by cbv

theorem keptQuery_served (held : Declarations) : keptQuery.Served columnsByType [⟨none, none⟩] held :=
  .prepare held keptQuery_prepare id

theorem served_metadata_seven :
    keptQuery.Served columnsByType [⟨none, none⟩] noDeclarations ∧
      keptQuery.IsServed columnsByType noDeclarations (sevenDeclared noDeclarations "q00000") (.single sevenRow)
        sevenConnection sevenReplies ∧
      ∃ s, (keptQuery.execute (.single sevenRow) sevenConnection).query = .single s ∧
        s.fields = [typedColumn Oid.int4] := by
  have history := keptQuery_served noDeclarations
  have sent : keptQuery.pipelines (.single sevenRow) = [sevenRequests "q00000"] := by rfl
  have served : keptQuery.IsServed columnsByType noDeclarations (sevenDeclared noDeclarations "q00000")
      (.single sevenRow) sevenConnection sevenReplies :=
    ⟨rfl, ⟨_, sent, seven_serves _ _⟩, ⟨[], seven_delivers⟩⟩
  obtain ⟨-, -, -, each⟩ := served_metadata history served
  refine ⟨history, served, ?_⟩
  rw [served.execute.2] at each ⊢
  obtain ⟨parsed, described, origin, ⟨-, fields⟩, -⟩ := each _ List.mem_cons_self
  cases origin
  exact ⟨_, rfl, fields⟩

def describedStatement : Statement :=
  { onceStatement with types := [Oid.int4], fields := [typedColumn Oid.int4], described := true }

theorem describedStatement_served :
    (Query.single describedStatement).Served columnsByType [⟨some [Oid.int4], some [Oid.int4]⟩]
      (sevenDeclared noDeclarations "") := by
  have served : onceQuery.IsServed columnsByType noDeclarations (sevenDeclared noDeclarations "")
      (.single sevenRow) sevenConnection sevenReplies :=
    ⟨rfl, ⟨_, onceQuery_sends, seven_serves _ _⟩, ⟨[], seven_delivers⟩⟩
  have history : onceQuery.Served columnsByType [⟨none, none⟩] noDeclarations := .prepare _ onceQuery_prepare id
  have after := history.served served
  rw [served.execute.2] at after
  exact after

def textRow : ParameterList := [⟨.value (.text "x"), Oid.text, .input, .text⟩]

def textRequests : List Request :=
  [⟨"SELECT $1", [Oid.text], .parse ⟨"", "SELECT $1", 1, [Oid.text]⟩⟩,
    ⟨"SELECT $1", [Oid.text], .bind ⟨"", "", 1, [.text], 1, 5, [some [0x78]], 0, []⟩⟩,
    ⟨"SELECT $1", [Oid.text], .execute "" 0⟩]

def textReplies : List BackendMessage := [.parseComplete, .bindComplete, .commandComplete "SELECT 1", .readyForQuery]

def textDeclared (held : Declarations) : Declarations := Function.update held "" (some ⟨"SELECT $1", [Oid.text]⟩)

def textConnection : Connection :=
  ⟨frames [(0x31, []), (0x32, []), (0x43, selectTag), (0x5A, [0x49])] ++ [], [], true, .default⟩

theorem text_served (held : Declarations) :
    (Query.single describedStatement).IsServed columnsByType held (textDeclared held) (.single textRow) textConnection
      textReplies := by
  have sent : (Query.single describedStatement).pipelines (.single textRow) = [textRequests] := by rfl
  have executed : Serves columnsByType (textDeclared held) (.execute "" 0) ([] ++ [.commandComplete "SELECT 1"])
      (textDeclared held) := .execute (by simp) .tag
  have delivered : Delivers textReplies textConnection.incoming [] := delivers_frames (by decide) rfl []
  constructor
  · rfl
  · exact ⟨_, sent, .cons .parse (.cons .bind (.cons executed (.cons .sync .nil)))⟩
  · exact ⟨[], delivered⟩

/-- The unnamed statement is parsed with a text, and its field is still the one of a number. -/
theorem served_metadata_stale :
    (Query.single describedStatement).Served columnsByType [⟨some [Oid.int4], some [Oid.int4]⟩]
        (sevenDeclared noDeclarations "") ∧
      (Query.single describedStatement).IsServed columnsByType (sevenDeclared noDeclarations "")
        (textDeclared (sevenDeclared noDeclarations "")) (.single textRow) textConnection textReplies ∧
      (∃ counts,
        ((Query.single describedStatement).execute (.single textRow) textConnection).outcome = .ok counts) ∧
      ((Query.single describedStatement).execute (.single textRow) textConnection).query =
        .single describedStatement ∧
      textDeclared (sevenDeclared noDeclarations "") "" = some (describedStatement.declared [Oid.text]) ∧
      describedStatement.fields ≠ (columnsByType (describedStatement.declared [Oid.text])).fields := by
  have served := text_served (sevenDeclared noDeclarations "")
  obtain ⟨outcome, after⟩ := served.execute
  refine ⟨describedStatement_served, served, outcome, ?_, Function.update_self _ _ _, by decide⟩
  rw [after]
  rfl

end ExtendedQuery
