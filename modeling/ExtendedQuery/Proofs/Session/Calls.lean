import ExtendedQuery.Batch
import ExtendedQuery.Proofs.Session.Conversation

/-!
# Calls

Executing a query, executing a batch and closing statements are the calls that send anything. Each settles
with a server whose statements agree with the query: its records agree again afterwards, it is kept under
the same names as before, and the server has left all other statements alone (`Query.Follows`).
-/

namespace ExtendedQuery

open Wire

/-! ## Queries and the names of their statements -/

namespace Query

def names : Query → List StatementName
  | .single s => [s.name]
  | .batched s => [s.baseName]
  | .composite statements => statements.map (·.name)

def keptNames (query : Query) : List StatementName := query.names.filter (!·.isUnnamed)

def Owns (query : Query) (name : String) : Prop :=
  ∃ base ∈ query.keptNames, ∃ rows, 0 < rows ∧ name = (base.ofRows rows).text

/-- The names that are used to ask the server for a statement of the query, the unnamed one included. -/
def Uses : Query → (name : String) → Prop
  | .single s, name => name = s.name.text
  | .batched s, name => ∃ rows, 0 < rows ∧ name = (s.baseName.ofRows rows).text
  | .composite statements, name => ∃ base ∈ statements.map (·.name), name = base.text

def Agrees (held : Holdings) : Query → Prop
  | .single s => s.Agrees held
  | .batched s => s.Agrees held
  | .composite statements => ∀ s ∈ statements, s.Agrees held

structure Follows (held : Holdings) (query : Query) (held' : Holdings) (query' : Query) : Prop where
  names : query'.names = query.names
  uses : query'.Uses = query.Uses
  agrees : query'.Agrees held'
  frame : ∀ name, ¬ query.Uses name → held' name = held name

theorem mem_keptNames {query : Query} {name : StatementName} :
    name ∈ query.keptNames ↔ name ∈ query.names ∧ name.isUnnamed = false := by
  simp [keptNames]

theorem keptNames_of_names {query query' : Query} (same : query'.names = query.names) :
    query'.keptNames = query.keptNames := by
  rw [keptNames, same, keptNames]

theorem owns_of_mem {query : Query} {base : StatementName} (member : base ∈ query.names) {name : String}
    (nonempty : name ≠ "") {rows : Nat} (positive : 0 < rows) (same : name = (base.ofRows rows).text) :
    query.Owns name := by
  refine ⟨base, mem_keptNames.2 ⟨member, ?_⟩, rows, positive, same⟩
  rw [← Bool.not_eq_true, ← StatementName.isUnnamed_ofRows base rows, StatementName.isUnnamed_iff, ← same]
  exact nonempty

theorem Uses.of_names {query : Query} {name : String} (uses : query.Uses name) :
    ∃ base ∈ query.names, ∃ rows, 0 < rows ∧ name = (base.ofRows rows).text := by
  cases query with
  | single s => exact ⟨s.name, by simp [names], 1, Nat.one_pos, by rw [StatementName.ofRows_one]; exact uses⟩
  | batched s =>
    obtain ⟨rows, positive, same⟩ := uses
    exact ⟨s.baseName, by simp [names], rows, positive, same⟩
  | composite statements =>
    obtain ⟨base, member, same⟩ := uses
    exact ⟨base, member, 1, Nat.one_pos, by rw [StatementName.ofRows_one]; exact same⟩

theorem Uses.owns {query : Query} {name : String} (uses : query.Uses name) (nonempty : name ≠ "") :
    query.Owns name := by
  obtain ⟨base, member, rows, positive, same⟩ := uses.of_names
  exact owns_of_mem member nonempty positive same

theorem owns_of_statement {query : Query} {s : Statement} (member : s.name ∈ query.names) {name : String}
    (owns : s.Owns name) : query.Owns name := by
  obtain ⟨named, rfl⟩ := owns
  exact ⟨s.name, mem_keptNames.2 ⟨member, named⟩, 1, Nat.one_pos, by rw [StatementName.ofRows_one]⟩

theorem owns_of_batched {s : BatchedStatement} {name : String} (owns : s.Owns name) :
    (Query.batched s).Owns name := by
  obtain ⟨named, rows, positive, rfl⟩ := owns
  exact ⟨s.baseName, mem_keptNames.2 ⟨by simp [names], named⟩, rows, positive, rfl⟩

theorem agrees_frame {query : Query} {held held' : Holdings} (agrees : query.Agrees held)
    (same : ∀ name, query.Owns name → held' name = held name) : query.Agrees held' := by
  cases query with
  | single s =>
    apply Tracked.agrees_frame (s := s) agrees
    exact fun name owns => same name (owns_of_statement (by simp [names]) owns)
  | batched s =>
    apply Tracked.agrees_frame (s := s) agrees
    exact fun name owns => same name (owns_of_batched owns)
  | composite statements =>
    intro s member
    apply Tracked.agrees_frame (s := s) (agrees s member)
    exact fun name owns => same name (owns_of_statement (List.mem_map_of_mem member) owns)

theorem Follows.refl {held : Holdings} {query : Query} (agrees : query.Agrees held) :
    Follows held query held query := ⟨rfl, rfl, agrees, fun _ _ => rfl⟩

theorem Follows.trans {held held' held'' : Holdings} {query query' query'' : Query}
    (first : Follows held query held' query') (second : Follows held' query' held'' query'') :
    Follows held query held'' query'' := by
  refine ⟨second.names.trans first.names, second.uses.trans first.uses, second.agrees, fun name other => ?_⟩
  have other' : ¬ query'.Uses name := by rwa [first.uses]
  rw [second.frame name other', first.frame name other]

/-! ## Executing a query -/

/-- What `execute` sends. -/
def pipelines (query : Query) (parameters : Parameters) : List (List Request) :=
  match query, parameters with
  | .single s, .single list => ExtendedQuery.pipelines [⟨s, list⟩]
  | .batched s, .single list =>
    if list.length ≠ s.arity then [] else ExtendedQuery.pipelines [⟨s.reset, list⟩]
  | .composite statements, .composite lists =>
    if statements.length ≠ lists.length then []
    else ExtendedQuery.pipelines (List.zipWith Binding.mk statements lists)
  | _, _ => []

section

variable {s : BatchedStatement} {statements : List Statement} {list : ParameterList} {lists : List ParameterList}

theorem pipelines_batched (length : list.length = s.arity) :
    (Query.batched s).pipelines (.single list) = ExtendedQuery.pipelines [⟨s.reset, list⟩] :=
  if_neg (not_not.2 length)

theorem execute_batched (length : list.length = s.arity) (c : Connection) :
    (Query.batched s).execute (.single list) c =
      ⟨(exchangeOne s.reset list c).1, .batched (exchangeOne s.reset list c).2.1.statement,
        .single (exchangeOne s.reset list c).2.1.parameters, (exchangeOne s.reset list c).2.2⟩ :=
  if_neg (not_not.2 length)

theorem pipelines_composite (length : statements.length = lists.length) :
    (Query.composite statements).pipelines (.composite lists) =
      ExtendedQuery.pipelines (List.zipWith Binding.mk statements lists) :=
  if_neg (not_not.2 length)

theorem execute_composite (length : statements.length = lists.length) (c : Connection) :
    (Query.composite statements).execute (.composite lists) c =
      ⟨(exchange (List.zipWith Binding.mk statements lists) c).1,
        .composite ((exchange (List.zipWith Binding.mk statements lists) c).2.1.map (·.statement)),
        .composite ((exchange (List.zipWith Binding.mk statements lists) c).2.1.map (·.parameters)),
        (exchange (List.zipWith Binding.mk statements lists) c).2.2⟩ :=
  if_neg (not_not.2 length)

end

inductive Pairing : Query → Parameters → Prop
  | single (s : Statement) (list : ParameterList) : Pairing (.single s) (.single list)
  | batched {s : BatchedStatement} {list : ParameterList} : list.length = s.arity →
      Pairing (.batched s) (.single list)
  | composite {statements : List Statement} {lists : List ParameterList} : statements.length = lists.length →
      Pairing (.composite statements) (.composite lists)
  | refused {query : Query} {parameters : Parameters} (e : BindError) : query.pipelines parameters = [] →
      (∀ c, query.execute parameters c = ⟨.error (.bind e), query, parameters, c⟩) → Pairing query parameters

theorem pairing (query : Query) (parameters : Parameters) : Pairing query parameters := by
  cases query with
  | single s =>
    cases parameters with
    | single list => exact .single s list
    | composite lists => exact .refused _ rfl fun _ => rfl
  | batched s =>
    cases parameters with
    | single list =>
      by_cases length : list.length = s.arity
      · exact .batched length
      · exact .refused _ (if_pos length) fun _ => if_pos length
    | composite lists => exact .refused _ rfl fun _ => rfl
  | composite statements =>
    cases parameters with
    | single list => exact .refused _ rfl fun _ => rfl
    | composite lists =>
      by_cases length : statements.length = lists.length
      · exact .composite length
      · exact .refused _ (if_pos length) fun _ => if_pos length

theorem follows_single {s t : Statement} {held held' : Holdings}
    (same : Tracked.bare t = Tracked.bare s) (agrees : t.Agrees held')
    (frame : ∀ name, name ≠ s.name.text → held' name = held name) :
    Follows held (.single s) held' (.single t) := by
  have name : t.name = s.name := congrArg Descriptor.name same
  refine ⟨by rw [names, names, name], ?_, agrees, fun other unused => frame other unused⟩
  funext other
  rw [Uses, Uses, name]

theorem uses_batched {s t : BatchedStatement} (baseName : t.baseName = s.baseName) :
    (Query.batched t).Uses = (Query.batched s).Uses := by
  funext name
  rw [Uses, Uses, baseName]

theorem follows_batched {s t : BatchedStatement} {held held' : Holdings} (positive : 0 < s.rows)
    (same : Tracked.bare t = Tracked.bare s) (agrees : t.Agrees held')
    (frame : ∀ name, name ≠ s.name.text → held' name = held name) :
    Follows held (.batched s) held' (.batched t) := by
  have baseName : t.baseName = s.baseName := (BatchedStatement.eq_of_bare same).2.1
  refine ⟨by rw [names, names, baseName], uses_batched baseName, agrees, fun other unused => frame other ?_⟩
  intro equal
  exact unused ⟨s.rows, positive, equal⟩

theorem follows_reset {s : BatchedStatement} {held : Holdings} (agrees : s.Agrees held) :
    Follows held (.batched s) held (.batched s.reset) := by
  obtain ⟨-, baseName, -⟩ := s.reset_same
  exact ⟨by rw [names, names, baseName], uses_batched baseName, agrees.reset, fun _ _ => rfl⟩

theorem apart_of_nodup {statements : List Statement}
    (distinct : (Query.composite statements).keptNames.Nodup) : statements.Pairwise Apart := by
  rw [keptNames, names, List.Nodup, List.pairwise_filter, List.pairwise_map] at distinct
  refine distinct.imp fun {s t} different name owns owns' => ?_
  obtain ⟨named, rfl⟩ := owns
  obtain ⟨named', same⟩ := owns'
  exact different (by simp [named]) (by simp [named']) (StatementName.eq_of_text same)

theorem map_statement_zipWith {statements : List Statement} {lists : List ParameterList}
    (length : statements.length = lists.length) :
    (List.zipWith Binding.mk statements lists).map (·.statement) = statements := by
  rw [List.map_zipWith, ← List.map_uncurry_zip_eq_zipWith]
  exact List.map_fst_zip length.le

theorem mem_statements {statements : List Statement} {lists : List ParameterList}
    (length : statements.length = lists.length) {b : Binding Statement}
    (member : b ∈ List.zipWith Binding.mk statements lists) : b.statement ∈ statements := by
  rw [← map_statement_zipWith length]
  exact List.mem_map_of_mem member

theorem apart_bindings {statements : List Statement} {lists : List ParameterList}
    (length : statements.length = lists.length) (distinct : (Query.composite statements).keptNames.Nodup) :
    (List.zipWith Binding.mk statements lists).Pairwise fun a b => Apart a.statement b.statement := by
  have apart := apart_of_nodup distinct
  rw [← map_statement_zipWith length, List.pairwise_map] at apart
  exact apart

theorem follows_composite {statements : List Statement} {lists : List ParameterList}
    (length : statements.length = lists.length) {bindings : List (Binding Statement)}
    {held held' : Holdings}
    (related : List.Forall₂ (fun a b : Binding Statement => Tracked.bare b.statement = Tracked.bare a.statement ∧
      Tracked.Agrees held' b.statement) (List.zipWith Binding.mk statements lists) bindings)
    (frame : ∀ name, (∀ b ∈ List.zipWith Binding.mk statements lists, name ≠ b.statement.name.text) →
      held' name = held name) :
    Follows held (.composite statements) held' (.composite (bindings.map (·.statement))) := by
  have same := map_statement_zipWith length
  generalize List.zipWith Binding.mk statements lists = before at related frame same
  subst same
  have parts : bindings.map (·.statement.name) = before.map (·.statement.name) ∧
      ∀ b ∈ bindings, b.statement.Agrees held' := by
    clear frame length
    induction related with
    | nil => simp
    | @cons a b _ _ first _ ih =>
      have name : b.statement.name = a.statement.name := congrArg Descriptor.name first.1
      refine ⟨by rw [List.map_cons, List.map_cons, name, ih.1], fun x member => ?_⟩
      rcases List.mem_cons.1 member with rfl | inside
      · exact first.2
      · exact ih.2 x inside
  have sameNames : (bindings.map (·.statement)).map (·.name) = (before.map (·.statement)).map (·.name) := by
    rw [List.map_map, List.map_map]
    exact parts.1
  refine ⟨sameNames, ?_, ?_, fun name unused => frame name fun b member equal => unused ?_⟩
  · funext name
    rw [Uses, Uses, sameNames]
  · intro s member
    obtain ⟨b, inside, rfl⟩ := List.mem_map.1 member
    exact parts.2 b inside
  · exact ⟨b.statement.name, List.mem_map_of_mem (List.mem_map_of_mem member), equal⟩

theorem execute_settles {query : Query} {held : Holdings} (agrees : query.Agrees held)
    (distinct : query.keptNames.Nodup) (parameters : Parameters) {c : Connection}
    (writable : c.writable = true) :
    Settles held c (query.pipelines parameters) (query.execute parameters c).connection fun held' =>
      Follows held query held' (query.execute parameters c).query := by
  cases pairing query parameters with
  | single s list =>
    apply (exchangeOne_settles (s := s) list agrees writable).mono
    intro held' settled
    exact follows_single settled.1 settled.2.1 settled.2.2
  | @batched s list length =>
    have reset := follows_reset agrees
    rw [pipelines_batched length, execute_batched length]
    apply (exchangeOne_settles (s := s.reset) list reset.agrees writable).mono
    intro held' settled
    exact reset.trans (follows_batched agrees.reset.sound.positive settled.1 settled.2.1 settled.2.2)
  | @composite statements lists length =>
    have bound : ∀ b ∈ List.zipWith Binding.mk statements lists, b.statement.Agrees held :=
      fun b member => agrees b.statement (mem_statements length member)
    rw [pipelines_composite length, execute_composite length]
    apply (exchange_settles bound (apart_bindings length distinct) writable).mono
    intro held' settled
    exact follows_composite length settled.1 settled.2
  | refused e none same =>
    rw [none, same]
    exact .nothing writable (.refl agrees)

end Query

/-! ## Executing a batch -/

namespace Batch

open Query (Follows)

def flushPipelines (s : BatchedStatement) : List (List Request) :=
  match s.pending with
  | none => []
  | some queued => pipelines [⟨{ s with pending := none }, queued⟩]

def mergeRowPipelines (s : BatchedStatement) : (row : Parameters) → List (List Request)
  | .composite _ => []
  | .single list =>
    match s.addRow list with
    | .error (.full _) => flushPipelines s
    | _ => []

def mergeRowsPipelines : BatchedStatement → (rows : List Parameters) → Connection → List (List Request)
  | s, [], _ => flushPipelines s
  | s, row :: later, c =>
    mergeRowPipelines s row ++
      match mergeRow s row c with
      | (.error _, _, _) => []
      | (.ok _, s, c) => mergeRowsPipelines s later c

def executeRowsPipelines : (query : Query) → (rows : List Parameters) → Connection → List (List Request)
  | _, [], _ => []
  | query, row :: later, c =>
    query.pipelines row ++
      match (query.execute row c).outcome with
      | .error _ => []
      | .ok _ => executeRowsPipelines (query.execute row c).query later (query.execute row c).connection

/-- What `execute` sends. -/
def pipelines (batch : Batch) (c : Connection) : List (List Request) :=
  match batch.query with
  | .batched s => mergeRowsPipelines s batch.rows c
  | query => executeRowsPipelines query batch.rows c

theorem follows_pending {s : BatchedStatement} {held : Holdings} (agrees : s.Agrees held)
    (pending : Option ParameterList) :
    Follows held (.batched s) held (.batched { s with pending := pending }) := by
  refine ⟨rfl, rfl, agrees.of_shapes ?_ rfl rfl rfl, fun _ _ => rfl⟩
  have sound := agrees.sound
  exact ⟨sound.marks, sound.positive, sound.template, sound.types, sound.ordered⟩

theorem follows_addRow {s t : BatchedStatement} {row : ParameterList} (added : s.addRow row = .ok t)
    {held : Holdings} (agrees : s.Agrees held) : Follows held (.batched s) held (.batched t) := by
  obtain ⟨-, ⟨-, rfl⟩ | ⟨queued, -, -, rfl⟩⟩ := BatchedStatement.addRow_eq_ok added
  · exact follows_pending agrees _
  · have grown := agrees.of_shapes (agrees.sound.reshape s.rows.succ_pos) rfl rfl rfl
    have first : Follows held (.batched s) held (.batched (s.reshape (s.rows + 1))) :=
      ⟨rfl, rfl, grown, fun _ _ => rfl⟩
    exact first.trans (follows_pending grown _)

theorem flush_settles {s : BatchedStatement} {held : Holdings} (agrees : s.Agrees held) {c : Connection}
    (writable : c.writable = true) :
    Settles held c (flushPipelines s) (flush s c).2.2 fun held' =>
      Follows held (.batched s) held' (.batched (flush s c).2.1) := by
  unfold flushPipelines flush
  cases s.pending with
  | none => exact .nothing writable (Query.follows_reset agrees)
  | some queued =>
    have taken := follows_pending agrees none
    have settles := exchangeOne_settles (s := { s with pending := none }) queued taken.agrees writable
    refine settles.mono fun held' settled => ?_
    have sent := Query.follows_batched (s := { s with pending := none }) agrees.sound.positive settled.1
      settled.2.1 settled.2.2
    exact taken.trans (sent.trans (Query.follows_reset sent.agrees))

theorem mergeRow_settles {s : BatchedStatement} {held : Holdings} (agrees : s.Agrees held)
    (row : Parameters) {c : Connection} (writable : c.writable = true) :
    Settles held c (mergeRowPipelines s row) (mergeRow s row c).2.2 fun held' =>
      Follows held (.batched s) held' (.batched (mergeRow s row c).2.1) := by
  have still : Follows held (.batched s) held (.batched s) := .refl agrees
  unfold mergeRowPipelines mergeRow
  cases row with
  | composite lists => exact .nothing writable still
  | single list =>
    dsimp only
    cases added : s.addRow list with
    | ok t => exact .nothing writable (follows_addRow added agrees)
    | error e =>
      cases e with
      | full rows =>
        have flushed := flush_settles agrees writable
        generalize flush s c = result at flushed ⊢
        obtain ⟨outcome, t, d⟩ := result
        cases outcome with
        | error e => exact flushed
        | ok outcomes =>
          dsimp only
          cases again : t.addRow list with
          | error e => exact flushed
          | ok u => exact flushed.mono fun held' follows => follows.trans (follows_addRow again follows.agrees)
      | arityMismatch expected found => exact .nothing writable still
      | notGrowable => exact .nothing writable still

theorem mergeRows_settles (rows : List Parameters) {s : BatchedStatement} {held : Holdings}
    (agrees : s.Agrees held) {c : Connection} (writable : c.writable = true) (done : List RowOutcome) :
    Settles held c (mergeRowsPipelines s rows c) (mergeRows done s rows c).2.2 fun held' =>
      Follows held (.batched s) held' (.batched (mergeRows done s rows c).2.1) := by
  induction rows generalizing s held c done with
  | nil => exact flush_settles agrees writable
  | cons row later ih =>
    unfold mergeRowsPipelines mergeRows
    refine (mergeRow_settles agrees row writable).append fun held' writable' follows => ?_
    generalize mergeRow s row c = result at writable' follows ⊢
    obtain ⟨outcome, t, d⟩ := result
    cases outcome with
    | error e => exact .nothing writable' follows
    | ok outcomes => exact (ih follows.agrees writable' _).mono fun held'' later => follows.trans later

theorem executeRows_settles (rows : List Parameters) {query : Query} {held : Holdings}
    (agrees : query.Agrees held) (distinct : query.keptNames.Nodup) {c : Connection}
    (writable : c.writable = true) (done : List RowOutcome) :
    Settles held c (executeRowsPipelines query rows c) (executeRows done query rows c).2.2 fun held' =>
      Follows held query held' (executeRows done query rows c).2.1 := by
  induction rows generalizing query held c done with
  | nil => exact .nothing writable (.refl agrees)
  | cons row later ih =>
    unfold executeRowsPipelines executeRows
    refine (Query.execute_settles agrees distinct row writable).append fun held' writable' follows => ?_
    dsimp only
    cases (query.execute row c).outcome with
    | error e => exact .nothing writable' follows
    | ok affected =>
      rw [← Query.keptNames_of_names follows.names] at distinct
      exact (ih follows.agrees distinct writable' _).mono fun held'' later => follows.trans later

theorem execute_settles {batch : Batch} {held : Holdings} (agrees : batch.query.Agrees held)
    (distinct : batch.query.keptNames.Nodup) {c : Connection} (writable : c.writable = true) :
    Settles held c (batch.pipelines c) (batch.execute c).2.2 fun held' =>
      Follows held batch.query held' (batch.execute c).2.1.query := by
  obtain ⟨query, rows⟩ := batch
  cases query with
  | batched s =>
    refine (mergeRows_settles rows agrees writable []).mono fun held' follows => ?_
    exact follows.trans (Query.follows_reset follows.agrees)
  | single s => exact executeRows_settles rows agrees distinct writable []
  | composite statements => exact executeRows_settles rows agrees distinct writable []

end Batch

/-! ## Closing statements -/

namespace Connection

def closeRequests (names : List StatementName) : List Request :=
  names.map fun name => ⟨"", [], .close statementTarget name.text⟩

def closePipelines (names : List StatementName) : List (List Request) :=
  match names.filter (!·.isUnnamed) with
  | [] => []
  | names =>
    if (FrontendMessage.writeAll? (pipelineOf (closeRequests names)) []).isSome then [closeRequests names]
    else []

theorem obeyed_close (names : List StatementName) (held : Holdings) : Obeyed held (closeRequests names) := by
  induction names generalizing held with
  | nil => exact trivial
  | cons name names ih => exact ⟨trivial, fun _ _ _ => ih _⟩

theorem awaitClosed_runs {names : List StatementName} {held : Holdings} {server : Server}
    {replies : List BackendMessage} {c : Connection} {rest : Bytes}
    (runs : Server.Runs ⟨held, false⟩ (pipelineOf (closeRequests names)) replies server)
    (delivered : Delivers replies c.incoming rest) :
    ∃ outcome d, c.awaitClosed names.length = (outcome, d) ∧ c.Quiet d ∧ server.skipping = false ∧
      (∀ name, (∀ closed ∈ names, name ≠ closed.text) → server.held name = held name) ∧
      Leaves outcome d rest := by
  induction names generalizing held replies c with
  | nil =>
    obtain ⟨rfl, outcome, d, result, quiet, leaves⟩ := awaitReady_runs runs delivered
    exact ⟨outcome, d, result, quiet, rfl, fun _ _ => rfl, leaves⟩
  | cons name names ih =>
    cases runs with
    | cons step later =>
      cases step with
      | accept accepts =>
        cases accepts with
        | close =>
          obtain ⟨d, received, quiet, delivered'⟩ := receiveReply_delivered delivered (by simp)
          obtain ⟨outcome, e, result, quiet', ready, frame, leaves⟩ := ih later delivered'
          refine ⟨outcome, e, ?_, quiet.trans quiet', ready, fun other different => ?_, leaves⟩
          · rw [List.length_cons, awaitClosed, received]
            exact result
          · rw [frame other fun closed member => different closed (by simp [member])]
            exact Function.update_of_ne (different name (by simp)) _ _
      | @refuse _ _ _ report _ begins =>
        have noSync : .sync ∉ (closeRequests names).map (·.message) := by simp [closeRequests]
        obtain ⟨rfl, rfl⟩ := later.skipping_sync noSync
        cases begins with
        | nothing =>
          obtain ⟨d, received, quiet, delivered'⟩ := receiveReply_error delivered
          refine ⟨.error (.server report), d, ?_, quiet, rfl, fun _ _ => rfl, .inr ⟨report, rfl, delivered'⟩⟩
          rw [List.length_cons, awaitClosed, received]

theorem closeStatements_settles (names : List StatementName) (held : Holdings) {c : Connection}
    (writable : c.writable = true) :
    Settles held c (closePipelines names) (c.closeStatements names).2 fun held' =>
      ∀ name, (∀ closed ∈ names, name ≠ closed.text) → held' name = held name := by
  unfold closePipelines closeStatements
  cases kept : names.filter (!·.isUnnamed) with
  | nil => exact .nothing writable fun _ _ => rfl
  | cons first later =>
    dsimp only
    have messages : ((first :: later).map fun name => FrontendMessage.close statementTarget name.text) ++
        [.sync] = pipelineOf (closeRequests (first :: later)) := by
      simp [pipelineOf, closeRequests]
    rw [messages]
    cases written : FrontendMessage.writeAll? (pipelineOf (closeRequests (first :: later))) [] with
    | none => exact .nothing writable fun _ _ => rfl
    | some bytes =>
      refine ⟨⟨obeyed_close _ _, fun _ _ _ _ _ => trivial⟩, fun converses => ?_⟩
      cases converses with
      | cons runs delivered done =>
        cases done
        obtain ⟨outcome, d, result, quiet, ready, frame, leaves⟩ :=
          awaitClosed_runs (c := { c with sent := c.sent ++ [bytes] }) runs delivered
        obtain ⟨e, resynchronised, quiet', read⟩ := leaves.resynchronise
        have both := quiet.trans quiet'
        dsimp only
        rw [Connection.send, if_pos writable]
        dsimp only
        rw [result]
        dsimp only
        rw [resynchronised]
        refine ⟨⟨[bytes], both.sent, .cons written .nil⟩, both.writable.trans writable, read, ready, ?_⟩
        intro name different
        refine frame name fun closed member => different closed ?_
        rw [← kept] at member
        exact (List.mem_filter.1 member).1

end Connection

end ExtendedQuery
