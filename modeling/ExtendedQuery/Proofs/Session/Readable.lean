import ExtendedQuery.Proofs.Session.Metadata
import ExtendedQuery.Proofs.Session.Outline
import ExtendedQuery.Proofs.Sql.Inert

/-!
# Statements as the server reads them

Whatever is executed, the statements that are parsed are those of the prepared query, an insert with as many rows as
it has grown to (`Query.Parses`). Names never hold a zero character, and the scanner, the renderer and the growth of
an insert neither bring one into a text nor take one out, so it is the prepared text alone that decides whether the
server reads what was sent (`parse_reads_back`).
-/

namespace ExtendedQuery

open Wire

namespace Query

theorem terminable_of_prepare {text : Text} {kept : Bool} {caps : Capabilities} {config : Config}
    {names names' : NameSupply} {query : Query}
    (prepared : prepare text kept caps config names = .ok (query, names')) :
    ∀ name ∈ query.names, Terminable name.text := by
  intro name member
  cases unnamed : name.isUnnamed with
  | true =>
    rw [(StatementName.isUnnamed_iff name).1 unnamed]
    decide
  | false =>
    obtain ⟨n, -, -, rfl⟩ := (prepare_taken prepared).1.numbered name member unnamed
    exact StatementName.zero_not_mem_numbered n

/-- The request parses what a statement of the query has become: it has the name and the text that the query was
prepared with, those of as many rows as an insert has then, and the types that are planned for the parameters. -/
inductive Parses (query : Query) (r : Request) : Prop
  | statement {s t : Statement} {list : ParameterList} {plan : Plan} : s ∈ query.statements → s.Reaches t →
      Binding.plan ⟨t, list⟩ = .ok plan →
      r = Binding.request ⟨t, list⟩ (.parse ⟨s.name.text, String.ofList s.fragments.native,
        UInt16.ofNat plan.types.length, plan.types⟩) → Parses query r
  | insert {s t : BatchedStatement} {list : ParameterList} {plan : Plan} : query = .batched s → s.Reaches t →
      0 < t.rows → Binding.plan ⟨t, list⟩ = .ok plan →
      r = Binding.request ⟨t, list⟩ (.parse ⟨(s.baseName.ofRows t.rows).text,
        String.ofList (s.base.grow t.rows).native, UInt16.ofNat plan.types.length, plan.types⟩) → Parses query r

theorem parses_statement {query : Query} {s t : Statement} (member : s ∈ query.statements) (reaches : s.Reaches t)
    {list : ParameterList} {r : Request} (isFor : r.IsFor (⟨t, list⟩ : Binding Statement)) {m : Parse}
    (parse : r.message = .parse m) : query.Parses r := by
  obtain ⟨plan, planned, same⟩ := parse_of_isFor isFor parse
  have fragments : t.fragments = s.fragments := congrArg (fun o => o.fragments) reaches.outline
  have name : t.name = s.name := congrArg (fun o => o.name) reaches.outline
  apply Parses.statement member reaches planned
  rw [same, ← fragments, ← name]
  rfl

theorem parses_insert {s t : BatchedStatement} (growable : s.base.later ≠ []) (positive : 0 < s.rows)
    (reaches : s.Reaches t) {list : ParameterList} {r : Request}
    (isFor : r.IsFor (⟨t, list⟩ : Binding BatchedStatement)) {m : Parse} (parse : r.message = .parse m) :
    (Query.batched s).Parses r := by
  obtain ⟨plan, planned, same⟩ := parse_of_isFor isFor parse
  have base : t.base = s.base := congrArg (fun o => o.base) reaches.outline
  have baseName : t.baseName = s.baseName := congrArg (fun o => o.baseName) reaches.outline
  have several := reaches.positive positive
  apply Parses.insert rfl reaches several planned
  rw [same, Sql.Fragments.native_grow growable several, ← base, ← baseName]
  rfl

theorem Asks.parses {text : Text} {kept : Bool} {caps : Capabilities} {config : Config} {names names' : NameSupply}
    {query : Query} (prepared : prepare text kept caps config names = .ok (query, names')) {r : Request}
    (asks : query.Asks r) {m : Parse} (parse : r.message = .parse m) : query.Parses r := by
  cases asks with
  | single reaches sentFor => exact parses_statement (List.mem_singleton_self _) reaches sentFor.isFor parse
  | batched reaches sentFor =>
    cases made_of_prepare prepared with
    | batched growable =>
      have marks := Sql.Fragments.later_ne_nil_of_isGrowable growable
      exact parses_insert marks Nat.one_pos reaches sentFor.isFor parse
  | composite member reaches sentFor => exact parses_statement member reaches sentFor.isFor parse

theorem Asks.framed {query : Query} {r : Request} (asks : query.Asks r) : r.message.frame?.isSome := by
  cases asks with
  | single _ sentFor => exact sentFor.framed
  | batched _ sentFor => exact sentFor.framed
  | composite _ _ sentFor => exact sentFor.framed

theorem mem_of_mem_statements {query : Query} {s : Statement} (member : s ∈ query.statements) :
    s.fragments ∈ query.fragments ∧ s.name ∈ query.names := by
  cases query with
  | single => exact ⟨List.mem_map_of_mem member, List.mem_map_of_mem member⟩
  | batched => cases member
  | composite => exact ⟨List.mem_map_of_mem member, List.mem_map_of_mem member⟩

theorem Parses.zero_mem {text : Text} {kept : Bool} {caps : Capabilities} {config : Config}
    {names names' : NameSupply} {query : Query}
    (prepared : prepare text kept caps config names = .ok (query, names')) {r : Request}
    (parses : query.Parses r) {m : Parse} (parse : r.message = .parse m) (zero : '\x00' ∈ m.sql.toList) :
    ∃ fragments ∈ query.fragments, '\x00' ∈ fragments.native := by
  cases parses with
  | @statement s t list plan member _ _ same =>
    subst same
    cases parse
    rw [String.toList_ofList] at zero
    exact ⟨s.fragments, (mem_of_mem_statements member).1, zero⟩
  | @insert s t list plan whole _ several _ same =>
    subst same whole
    cases parse
    cases made_of_prepare prepared with
    | @batched fragments growable =>
      have marks := Sql.Fragments.later_ne_nil_of_isGrowable growable
      rw [String.toList_ofList] at zero
      exact ⟨fragments, List.mem_singleton_self _, (Sql.mem_native_grow Sql.inert_zero marks several).1 zero⟩

theorem Parses.terminable_name {text : Text} {kept : Bool} {caps : Capabilities} {config : Config}
    {names names' : NameSupply} {query : Query}
    (prepared : prepare text kept caps config names = .ok (query, names')) {r : Request}
    (parses : query.Parses r) {m : Parse} (parse : r.message = .parse m) : Terminable m.name := by
  have terminable := terminable_of_prepare prepared
  cases parses with
  | @statement s t list plan member _ _ same =>
    subst same
    cases parse
    exact terminable s.name (mem_of_mem_statements member).2
  | @insert s t list plan whole _ _ _ same =>
    subst same whole
    cases parse
    exact StatementName.zero_not_mem_ofRows (terminable s.baseName (List.mem_singleton_self _)) t.rows

theorem Parses.counted {query : Query} {r : Request} (parses : query.Parses r) : r.message.Counted := by
  cases parses with
  | statement _ _ planned same =>
    subst same
    exact Binding.counted_parse planned
  | insert _ _ _ planned same =>
    subst same
    exact Binding.counted_parse planned

end Query

/-- What is sent to parse a statement names it, and has its whole native text and the types that are planned. The
server reads it so exactly if the text holds no zero character, at which a string of the protocol ends. -/
theorem parse_reads_back {text : Text} {kept : Bool} {caps : Capabilities} {config : Config}
    {names names' : NameSupply} {prepared : Query}
    (made : Query.prepare text kept caps config names = .ok (prepared, names')) {query query' : Query}
    (reached : prepared.Reaches query) {c d : Connection} {pipelines : List (List Request)}
    (call : Call c query pipelines d query') {requests : List Request} (sent : requests ∈ pipelines) {r : Request}
    (asked : r ∈ requests) {m : Parse} (parse : r.message = .parse m) :
    prepared.Parses r ∧
      (∃ frame, r.message.frame? = some frame ∧
        ∀ rest, FrontendMessage.read? (frame ++ rest) = some (.parse m, rest) ↔ '\x00' ∉ m.sql.toList) ∧
      ('\x00' ∈ m.sql.toList → '\x00' ∈ text) ∧
      ('\x00' ∈ text ↔ ∃ fragments ∈ prepared.fragments, '\x00' ∈ fragments.native) := by
  have asks := (call.asks requests sent r asked).of_reaches reached
  have parses := asks.parses made parse
  have carried := Sql.mem_text_iff Sql.inert_zero (Query.prepare_fragments made).1
  have framed := asks.framed
  rw [parses.counted.frame?_eq] at framed ⊢
  split at framed
  · rename_i sized
    refine ⟨parses, ⟨r.message.frame, if_pos sized, ?_⟩, ?_, carried⟩
    · intro rest
      rw [← parse, FrontendMessage.read?_frame_iff sized, parse]
      have name := parses.terminable_name made parse
      have counted := parses.counted
      rw [parse] at counted
      exact ⟨fun good => good.sql, fun sql => ⟨name, sql, counted⟩⟩
    · intro zero
      exact carried.2 (parses.zero_mem made parse zero)
  · cases framed

theorem parse_reads_back_seven :
    Query.prepare "SELECT ?".toList false .default .default .fresh = .ok (onceQuery, .fresh) ∧
      onceQuery.pipelines (.single sevenRow) = [sevenRequests ""] ∧
      ∃ frame, (FrontendMessage.parse (sevenParse "")).frame? = some frame ∧
        FrontendMessage.read? (frame ++ []) = some (.parse (sevenParse ""), []) := by
  have call : Call ⟨[], [], true, .default⟩ onceQuery _ _ _ := .execute (.single sevenRow)
  have sent : sevenRequests "" ∈ onceQuery.pipelines (.single sevenRow) := by simp [onceQuery_sends]
  obtain ⟨-, ⟨frame, framed, read⟩, -⟩ :=
    parse_reads_back onceQuery_prepare (.refl onceQuery) call sent List.mem_cons_self (m := sevenParse "") rfl
  exact ⟨onceQuery_prepare, onceQuery_sends, frame, framed, (read []).2 (by decide)⟩

def maskedText : Text := "SELECT 1\x00\x00\x01\x17".toList

def maskedQuery : Query := .single (.ofFragments ⟨maskedText, []⟩ .unnamed)

def maskedParse : Parse := ⟨"", String.ofList maskedText, 0, []⟩

def shownParse : Parse := ⟨"", "SELECT 1", 1, [0x17000000]⟩

/-- The server reads another statement, with a type for a parameter. -/
theorem parse_reads_back_masked :
    Query.prepare maskedText false .default .default .fresh = .ok (maskedQuery, .fresh) ∧
      maskedQuery.pipelines (.single []) =
        [[⟨String.ofList maskedText, [], .parse maskedParse⟩,
          ⟨String.ofList maskedText, [], .describe statementTarget ""⟩,
          ⟨String.ofList maskedText, [], .bind ⟨"", "", 0, [], 0, 0, [], 0, []⟩⟩,
          ⟨String.ofList maskedText, [], .execute "" 0⟩]] ∧
      FrontendMessage.read? (FrontendMessage.parse maskedParse).frame = some (.parse shownParse, []) := by
  have prepared : Query.prepare maskedText false .default .default .fresh = .ok (maskedQuery, .fresh) := by cbv
  have same : (FrontendMessage.parse maskedParse).frame = (FrontendMessage.parse shownParse).frame ++ [] := by decide
  have good : (FrontendMessage.parse shownParse).WellFormed := ⟨by decide, by decide, rfl⟩
  rw [same]
  exact ⟨prepared, rfl, (FrontendMessage.read?_frame_iff (by decide) []).2 good⟩

end ExtendedQuery
