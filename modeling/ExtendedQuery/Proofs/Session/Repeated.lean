import ExtendedQuery.Proofs.Session.Metadata
import ExtendedQuery.Proofs.Session.Typed

/-!
# Executions that are repeated

After one execution that succeeds the statements of a query are parsed for exactly the types that its parameters
have then, and they are described. Executing the query with these parameters again only binds and executes, and
it changes nothing, so the next execution is the same once more (`repeated_execution`).
-/

namespace ExtendedQuery

open Wire TypingServer

namespace Query

def Marked (marks : String → Nat) : Query → Prop
  | .single s => s.fragments.placeholderCount ≤ marks (String.ofList s.sql)
  | .batched s => ∀ rows, 0 < rows → s.arity * rows ≤ marks (s.sqlOf rows)
  | .composite statements => ∀ s ∈ statements, s.fragments.placeholderCount ≤ marks (String.ofList s.sql)

/-- A query of named statements, over any calls on a server that types them. Between the calls the server may do
anything with other names. -/
inductive Lives (marks : String → Nat) : Query → Holdings → Prop
  | prepare {sql : Text} {kept : Bool} {caps : Capabilities} {config : Config} {names names' : NameSupply}
      {query : Query} (held : Holdings) : Query.prepare sql kept caps config names = .ok (query, names') →
      (∀ name ∈ query.names, name.isUnnamed = false) → query.Marked marks → Lives marks query held
  | elsewhere {query : Query} {held held' : Holdings} : Lives marks query held →
      (∀ name, query.Owns name → held' name = held name) → Lives marks query held'
  | call {query query' : Query} {held held' : Holdings} {c d : Connection} {pipelines : List (List Request)}
      {rest : Bytes} : Lives marks query held → Call c query pipelines d query' →
      Talks marks c.writable held pipelines c.incoming held' rest → Lives marks query' held'
  | close {query : Query} {held : Holdings} (held' : Holdings) : Lives marks query held →
      Lives marks query.close.1 held'

variable {marks : String → Nat} {held held' : Holdings} {query : Query}

theorem typed_prepare {sql : Text} {kept : Bool} {caps : Capabilities} {config : Config} {names names' : NameSupply}
    (prepared : Query.prepare sql kept caps config names = .ok (query, names'))
    (named : ∀ name ∈ query.names, name.isUnnamed = false) (marked : query.Marked marks) (held : Holdings) :
    query.Typed marks held := by
  cases made_of_prepare prepared with
  | single fragments => exact Statement.typed_ofFragments (named _ List.mem_cons_self) marked held
  | batched growable =>
    exact BatchedStatement.typed_ofFragments growable (named _ List.mem_cons_self) rfl marked held
  | composite statements =>
    obtain ⟨-, made⟩ := NameSupply.takeFor_taken kept statements names
    intro s member
    have named' := named s.name (List.mem_map_of_mem member)
    have marked' := marked s member
    obtain ⟨fragments, same⟩ := made s member
    rw [same] at marked' ⊢
    exact Statement.typed_ofFragments named' marked' held

theorem Typed.frame (typed : query.Typed marks held) (same : ∀ name, query.Owns name → held' name = held name) :
    query.Typed marks held' := by
  cases query with
  | single s =>
    apply TypeTracked.typed_frame (s := s) typed
    exact fun name owns => same name (owns_of_statement (by simp [names]) owns)
  | batched s =>
    apply TypeTracked.typed_frame (s := s) typed
    exact fun name owns => same name (owns_of_batched owns)
  | composite statements =>
    intro s member
    apply TypeTracked.typed_frame (s := s) (typed s member)
    exact fun name owns => same name (owns_of_statement (List.mem_map_of_mem member) owns)

theorem Typed.close (typed : query.Typed marks held) (held' : Holdings) :
    query.Continues marks held' query.close.1 := by
  cases query with
  | single s => exact ⟨rfl, Statement.Typed.close typed held'⟩
  | batched s => exact ⟨rfl, BatchedStatement.Typed.close typed held'⟩
  | composite statements =>
    constructor
    · exact List.map_map
    · intro s member
      obtain ⟨before, inside, rfl⟩ := List.mem_map.1 member
      exact (typed before inside).close held'

theorem Lives.typed (history : query.Lives marks held) : query.Typed marks held ∧ query.keptNames.Nodup := by
  have after {before now : Query} {held : Holdings} (distinct : before.keptNames.Nodup)
      (continues : before.Continues marks held now) : now.Typed marks held ∧ now.keptNames.Nodup := by
    rw [keptNames_of_names continues.names]
    exact ⟨continues.typed, distinct⟩
  induction history with
  | prepare held prepared named marked =>
    obtain ⟨taken, -⟩ := prepare_taken prepared
    exact ⟨typed_prepare prepared named marked held, taken.distinct⟩
  | elsewhere _ same ih => exact ⟨ih.1.frame same, ih.2⟩
  | call _ call talks ih =>
    obtain ⟨-, -, continues⟩ := call.keeps ih.1 ih.2 _ _ talks
    exact after ih.2 continues
  | close held' _ ih => exact after ih.2 (ih.1.close held')

/-- The query and the parameters after any number of executions, each with what the one before has left. -/
inductive Repeats (query : Query) (parameters : Parameters) : Query → Parameters → Prop
  | first : Repeats query parameters query parameters
  | again {query' : Query} {parameters' : Parameters} (c : Connection) : Repeats query parameters query' parameters' →
      Repeats query parameters (query'.execute parameters' c).query (query'.execute parameters' c).parameters

theorem Repeats.same {parameters parameters' : Parameters} {query' : Query} {requests : List Request}
    (stays : ∀ c, query.Stays parameters requests c) (repeats : query.Repeats parameters query' parameters') :
    query' = query ∧ parameters' = parameters := by
  induction repeats with
  | first => exact ⟨rfl, rfl⟩
  | again c _ ih =>
    obtain ⟨rfl, rfl⟩ := ih
    obtain ⟨query, parameters, -⟩ := stays c
    exact ⟨query, parameters⟩

end Query

/-- After an execution that succeeds, every further one with the parameters that it leaves binds and executes each
statement and synchronises, all in the same write. -/
theorem repeated_execution {marks : String → Nat} {query : Query} {held last : Holdings}
    (history : query.Lives marks held) {parameters : Parameters} {c : Connection} {rest : Bytes}
    (talks : Talks marks c.writable held (query.pipelines parameters) c.incoming last rest) {counts : List Nat}
    (ok : (query.execute parameters c).outcome = .ok counts) :
    ∃ requests, BindsOnly query.names (pipelineOf requests) ∧
      ∀ query' parameters', (query.execute parameters c).query.Repeats (query.execute parameters c).parameters
          query' parameters' →
        query' = (query.execute parameters c).query ∧ parameters' = (query.execute parameters c).parameters ∧
        query'.pipelines parameters' = [requests] ∧
        ∀ d : Connection, d.writable = true → Sends d [requests] (query'.execute parameters' d).connection := by
  obtain ⟨typed, distinct⟩ := history.typed
  obtain ⟨-, -, executed⟩ := Query.execute_keeps typed distinct parameters c last rest talks
  obtain ⟨requests, pipelines, binds, stays⟩ := (executed.rebinds ok).executes
  rw [executed.continues.names] at binds
  refine ⟨requests, binds, fun query' parameters' repeats => ?_⟩
  obtain ⟨rfl, rfl⟩ := repeats.same stays
  exact ⟨rfl, rfl, pipelines, fun d writable => (stays d).2.2 writable⟩

def openRow : ParameterList := [⟨.value (.text "7"), Oid.unspecified, .input, .text⟩]

def openRequests : List Request :=
  [⟨"SELECT $1", [Oid.unspecified], .parse ⟨"q00000", "SELECT $1", 1, [Oid.unspecified]⟩⟩,
    ⟨"SELECT $1", [Oid.unspecified], .describe statementTarget "q00000"⟩,
    ⟨"SELECT $1", [Oid.unspecified], .bind ⟨"", "q00000", 1, [.text], 1, 5, [some [0x37]], 0, []⟩⟩,
    ⟨"SELECT $1", [Oid.unspecified], .execute "" 0⟩]

def openHoldings : Holdings := Function.update (fun _ => none) "q00000" (some ⟨"SELECT $1", [Oid.int4]⟩)

theorem open_runs :
    TypingServer.Runs (fun _ => 1) (fun _ => none) (pipelineOf openRequests) sevenReplies true openHoldings := by
  have types : decodeOids 1 [0, 0, 0, 23] = .ok [Oid.int4] := by rfl
  have fields : decodeFields 1 columnBody = .ok [typedColumn Oid.int4] := by rfl
  have assigns : Assigns (fun _ => 1) ⟨"q00000", "SELECT $1", 1, [Oid.unspecified]⟩ [Oid.int4] := by
    constructor
    · exact Nat.le_refl 1
    · intro i oid found specified
      cases i with
      | zero =>
        cases found
        exact absurd rfl specified
      | succ i => cases found
  have described : Step (fun _ => 1) openHoldings (.describe statementTarget "q00000")
      [.parameterDescription 1 [0, 0, 0, 23], .rowDescription 1 columnBody] openHoldings :=
    .describe (Function.update_self _ _ _) types (.fields fields)
  have executed : Step (fun _ => 1) openHoldings (.execute "" 0) ([] ++ [.commandComplete "SELECT 1"]) openHoldings :=
    .execute (by simp) .tag
  exact .cons (.parse assigns) (.cons described (.cons .bind (.cons executed (.cons .sync .nil))))

theorem repeated_execution_seven :
    keptQuery.Lives (fun _ => 1) (fun _ => none) ∧
      Talks (fun _ => 1) true (fun _ => none) (keptQuery.pipelines (.single openRow)) sevenConnection.incoming
        openHoldings [] ∧
      (∃ counts, (keptQuery.execute (.single openRow) sevenConnection).outcome = .ok counts) ∧
      ∃ requests, BindsOnly [.numbered 0] (pipelineOf requests) ∧
        (keptQuery.execute (.single openRow) sevenConnection).query.pipelines
          (keptQuery.execute (.single openRow) sevenConnection).parameters = [requests] := by
  have history : keptQuery.Lives (fun _ => 1) (fun _ => none) := by
    apply Query.Lives.prepare _ keptQuery_prepare
    · simp [keptQuery, Query.names, Statement.ofFragments]
    · exact Nat.le_refl 1
  have sent : keptQuery.pipelines (.single openRow) = [openRequests] := by rfl
  have talks : Talks (fun _ => 1) true (fun _ => none) (keptQuery.pipelines (.single openRow))
      sevenConnection.incoming openHoldings [] := by
    rw [sent]
    exact .served open_runs seven_delivers .nil
  obtain ⟨counts, answered⟩ := open_runs.served
  obtain ⟨ok, -⟩ := (Query.execute_inStep sent rfl).acknowledged answered seven_delivers
  obtain ⟨requests, binds, later⟩ := repeated_execution (c := sevenConnection) history talks ok
  obtain ⟨-, -, again, -⟩ := later _ _ .first
  exact ⟨history, talks, ⟨_, ok⟩, requests, binds, again⟩

end ExtendedQuery
