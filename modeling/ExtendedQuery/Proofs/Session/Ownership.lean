import ExtendedQuery.Proofs.Batch.Returning
import ExtendedQuery.Proofs.Session.Outline

/-!
# Who has to close a statement

A client that uses a cache alone knows every statement that the server keeps for it, each in one place: it is
recorded as parsed in a cached query, its name waits in the cache to be taken, or its name was taken
(`Session.accounted`). No step loses a name or finds it in two places (`Session.held_accounted`): the steps that
send nothing move names from place to place, and a call changes only names that its own query uses.
-/

namespace ExtendedQuery

open Wire

namespace BatchedStatement

theorem shapes_of_call {s t : BatchedStatement} {operation : Operation} (call : operation.isCall = true)
    (done : s.attempt operation = .ok t) : t.shapes = s.shapes ∨ t.shapes = [] := by
  cases operation with
  | queueRow | addRow row | reset => exact .inl (shapes_of_movesRows rfl done)
  | close =>
    cases done
    exact .inr rfl
  | _ => cases call

theorem Reaches.positive_recorded {s t : BatchedStatement} (reaches : s.Reaches t) (positive : 0 < s.rows)
    (nothing : s.shapes.at? 0 = none) : t.shapes.at? 0 = none := by
  induction reaches with
  | refl => exact nothing
  | @exchanged b b' reaches exchanged ih =>
    cases exchanged with
    | unchanged => exact ih
    | @awaited plan c planned =>
      have reported := Binding.await_reported plan.awaited b c
      exact (reported.others 0 (Nat.ne_of_lt (reaches.positive positive))).trans ih
  | call _ _ call done ih =>
    rcases shapes_of_call call done with same | closed
    · exact same ▸ ih
    · rw [closed]
      rfl
  | take _ ih => exact ih

end BatchedStatement

namespace Query

def parsedNames : Query → List StatementName
  | .single s => if s.prepared.isSome then [s.name] else []
  | .batched s => s.shapes.parsedRows.map s.baseName.ofRows
  | .composite statements => (statements.filter (·.prepared.isSome)).map (·.name)

/-- The query was prepared to be kept, and was only executed since. -/
structure IsKept (query : Query) : Prop where
  reached : ∃ (sql : Text) (caps : Capabilities) (config : Config) (names names' : NameSupply) (fresh : Query),
    Query.prepare sql true caps config names = .ok (fresh, names') ∧ fresh.Reaches query
  named : ∀ name ∈ query.names, name.isUnnamed = false

theorem IsKept.keptNames {query : Query} (kept : query.IsKept) : query.keptNames = query.names := by
  rw [Query.keptNames, List.filter_eq_self]
  intro name member
  rw [kept.named name member]
  rfl

theorem IsKept.positive {s : BatchedStatement} (kept : (batched s).IsKept) (ordered : s.shapes.Ordered) {rows : Nat}
    (member : rows ∈ s.shapes.parsedRows) : 0 < rows := by
  obtain ⟨sql, caps, config, names, names', fresh, prepared, reaches⟩ := kept.reached
  apply Nat.pos_of_ne_zero
  rintro rfl
  cases reaches with
  | batched reaches =>
    cases made_of_prepare prepared with
    | batched =>
      rw [Shapes.mem_parsedRows ordered, Shapes.preparedAt, reaches.positive_recorded Nat.one_pos rfl] at member
      cases member

theorem close_eq_parsedNames {query : Query} (kept : query.IsKept) : query.close.2 = query.parsedNames := by
  have single (s : Statement) (named : s.name.isUnnamed = false) :
      s.close.2 = if s.prepared.isSome then some s.name else none := by
    simp [Statement.close, named]
  cases query with
  | single s =>
    change s.close.2.toList = _
    rw [single s (kept.named _ (by simp [names])), parsedNames]
    split <;> rfl
  | batched s => rfl
  | composite statements =>
    have named : ∀ s ∈ statements, s.name.isUnnamed = false := fun s member =>
      kept.named _ (List.mem_map_of_mem member)
    change statements.filterMap (·.close.2) = _
    rw [parsedNames]
    clear kept
    induction statements with
    | nil => rfl
    | cons s later ih =>
      have ih := ih fun t member => named t (List.mem_cons_of_mem _ member)
      rw [List.filterMap_cons, single s (named s (by simp)), List.filter_cons]
      cases s.prepared.isSome with
      | false => exact ih
      | true => exact congrArg (s.name :: ·) ih

theorem prepare_named {sql : Text} {caps : Capabilities} {config : Config} {names names' : NameSupply}
    {query : Query} (prepared : Query.prepare sql true caps config names = .ok (query, names')) :
    ∀ name ∈ query.names, name.isUnnamed = false := by
  have several (statements : List Sql.Fragments) (names : NameSupply) :
      ∀ s ∈ (names.takeFor Statement.ofFragments true statements).1, s.name.isUnnamed = false := by
    induction statements generalizing names with
    | nil => simp [NameSupply.takeFor]
    | cons fragments later ih =>
      exact List.forall_mem_cons.2 ⟨StatementName.isUnnamed_numbered names.next, ih _⟩
  intro name member
  cases made_of_prepare prepared with
  | single | batched =>
    cases List.mem_singleton.1 member
    exact StatementName.isUnnamed_numbered names.next
  | composite statements =>
    obtain ⟨s, inside, rfl⟩ := List.mem_map.1 member
    exact several statements names s inside

theorem parsedNames_prepare {sql : Text} {kept : Bool} {caps : Capabilities} {config : Config}
    {names names' : NameSupply} {query : Query}
    (prepared : Query.prepare sql kept caps config names = .ok (query, names')) : query.parsedNames = [] := by
  cases made_of_prepare prepared with
  | single | batched => rfl
  | composite statements =>
    obtain ⟨-, made⟩ := NameSupply.takeFor_taken kept statements names
    rw [parsedNames, List.map_eq_nil_iff, List.filter_eq_nil_iff]
    intro s member
    obtain ⟨fragments, same⟩ := made s member
    rw [same]
    exact Bool.false_ne_true

theorem IsKept.prepare {sql : Text} {caps : Capabilities} {config : Config} {names names' : NameSupply}
    {query : Query} (prepared : Query.prepare sql true caps config names = .ok (query, names')) : query.IsKept :=
  ⟨⟨_, _, _, _, _, query, prepared, .refl query⟩, prepare_named prepared⟩

theorem IsKept.reaches {query query' : Query} (kept : query.IsKept) (reaches : query.Reaches query') :
    query'.IsKept := by
  obtain ⟨sql, caps, config, names, names', fresh, prepared, before⟩ := kept.reached
  exact ⟨⟨sql, caps, config, names, names', fresh, prepared, before.trans reaches⟩, reaches.names ▸ kept.named⟩

theorem mem_parsedNames {query : Query} (kept : query.IsKept) {held : Holdings} (agrees : query.Agrees held)
    (name : StatementName) : name ∈ query.parsedNames ↔ query.Uses name.text ∧ held name.text ≠ none := by
  have single {s : Statement} (agrees : s.Agrees held) (named : s.name.isUnnamed = false) :
      s.prepared.isSome = true ↔ held s.name.text ≠ none := by
    rw [(agrees.named named).isSome_iff, Option.isSome_iff_ne_none]
  cases query with
  | single s =>
    rw [parsedNames, List.mem_ite_nil_right, List.mem_singleton, single agrees (kept.named _ (by simp [names]))]
    constructor
    · rintro ⟨held, rfl⟩
      exact ⟨rfl, held⟩
    · rintro ⟨same, held⟩
      cases StatementName.eq_of_text same
      exact ⟨held, rfl⟩
  | batched s =>
    have named := kept.named _ (List.mem_singleton_self _)
    have recorded {rows : Nat} (positive : 0 < rows) :
        rows ∈ s.shapes.parsedRows ↔ held (s.baseName.ofRows rows).text ≠ none := by
      rw [Shapes.mem_parsedRows agrees.sound.ordered, ← Option.isSome_iff_ne_none]
      exact (agrees.named named rows positive).isSome_iff
    rw [parsedNames, List.mem_map]
    constructor
    · rintro ⟨rows, member, rfl⟩
      have positive := kept.positive agrees.sound.ordered member
      exact ⟨⟨rows, positive, rfl⟩, (recorded positive).1 member⟩
    · rintro ⟨⟨rows, positive, same⟩, held⟩
      cases StatementName.eq_of_text same
      exact ⟨rows, (recorded positive).2 held, rfl⟩
  | composite statements =>
    have named (s : Statement) (member : s ∈ statements) : s.name.isUnnamed = false :=
      kept.named _ (List.mem_map_of_mem member)
    rw [parsedNames, List.mem_map]
    constructor
    · rintro ⟨s, member, rfl⟩
      obtain ⟨member, parsed⟩ := List.mem_filter.1 member
      exact ⟨⟨s.name, List.mem_map_of_mem member, rfl⟩, (single (agrees s member) (named s member)).1 parsed⟩
    · rintro ⟨⟨base, member, same⟩, held⟩
      cases StatementName.eq_of_text same
      obtain ⟨s, inside, rfl⟩ := List.mem_map.1 member
      exact ⟨s, List.mem_filter.2 ⟨inside, (single (agrees s inside) (named s inside)).2 held⟩, rfl⟩

theorem nodup_parsedNames {query : Query} (kept : query.IsKept) {held : Holdings} (agrees : query.Agrees held)
    (distinct : query.keptNames.Nodup) : query.parsedNames.Nodup := by
  rw [kept.keptNames] at distinct
  cases query with
  | single s =>
    rw [parsedNames]
    split
    · exact List.nodup_singleton _
    · exact List.nodup_nil
  | batched s =>
    have named := kept.named _ (List.mem_singleton_self _)
    apply List.Nodup.map_on _ agrees.sound.ordered.nodup_parsedRows
    intro a ha b hb same
    have positive {rows : Nat} (member : rows ∈ s.shapes.parsedRows) : 0 < rows :=
      kept.positive agrees.sound.ordered member
    exact StatementName.ofRows_inj named (positive ha) (positive hb) same
  | composite statements => exact distinct.sublist (List.filter_sublist.map _)

end Query

namespace Session

variable {s t : Session}

/-- All names for which somebody has to close a statement. -/
def accounted (s : Session) : List StatementName :=
  s.cache.entries.flatMap (·.2.parsedNames) ++ (s.cache.evicted ++ s.released)

/-- The query that was asked for last is the one that can be called. -/
inductive CacheStep (s : Session) : Session → Prop
  | getOrPrepare {sql : Text} {caps : Capabilities} {config : Config} {query : Query} {cache : StatementCache}
      {names : NameSupply} : s.cache.getOrPrepare sql caps config s.names = .ok (query, cache, names) →
      CacheStep s { s with cache := cache, names := names }
  | refused {sql : Text} {caps : Capabilities} {config : Config} {e : Sql.Unterminated} :
      s.cache.getOrPrepare sql caps config s.names = .error e → CacheStep s s
  | call {key : CacheKey} {later : List (CacheKey × Query)} {query query' : Query}
      {pipelines : List (List Request)} {c : Connection} {server : Server} {rest : Bytes} :
      s.cache.entries = (key, query) :: later → Call s.connection query pipelines c query' →
      Converses s.server pipelines s.connection.incoming server rest →
      CacheStep s { s with cache := s.cache.putBack query', connection := c, server := server }
  | clear : CacheStep s { s with cache := s.cache.clear }
  | takeEvicted :
      CacheStep s { s with cache := s.cache.takeEvicted.2, released := s.released ++ s.cache.takeEvicted.1 }

inductive CacheReaches (start : Session) : Session → Prop
  | refl : CacheReaches start start
  | next {s t : Session} : CacheReaches start s → CacheStep s t → CacheReaches start t

structure Accounts (s : Session) : Prop where
  consistent : s.Consistent
  prepared : s.prepared = []
  keys : (s.cache.entries.map (·.1)).Nodup
  kept : ∀ entry ∈ s.cache.entries, entry.2.IsKept
  nodup : s.accounted.Nodup
  held : ∀ name : StatementName, s.server.held name.text ≠ none ↔ name ∈ s.accounted

theorem IsFresh.accounts {s : Session} (fresh : s.IsFresh) : s.Accounts := by
  have queries := fresh.queries
  rw [Session.queries, List.append_eq_nil_iff, List.map_eq_nil_iff] at queries
  have nothing : s.accounted = [] := by
    rw [accounted, queries.2, fresh.evicted, fresh.released]
    rfl
  constructor
  · exact fresh.consistent
  · exact queries.1
  · simp [queries.2]
  · simp [queries.2]
  · simp [nothing]
  · simp [nothing, fresh.held]

theorem entries_perm_of_nodup {entries : List (CacheKey × Query)} {key : CacheKey} {query : Query}
    (keys : (entries.map (·.1)).Nodup) (found : entries.lookup key = some query) :
    entries.Perm ((key, query) :: entries.filter (·.1 != key)) := by
  obtain ⟨front, back, rfl, -⟩ := List.lookup_eq_some_iff.1 found
  have perm : (front ++ (key, query) :: back).Perm ((key, query) :: (front ++ back)) := List.perm_middle
  have others : ∀ entry ∈ front ++ back, (entry.1 != key) = true := by
    intro entry member
    rw [bne_iff_ne]
    rintro rfl
    have absent := (List.nodup_cons.1 ((perm.map (·.1)).nodup_iff.1 keys)).1
    exact absent (List.mem_map.2 ⟨entry, member, rfl⟩)
  rw [List.filter_append, List.filter_cons_of_neg (by simp), ← List.filter_append, List.filter_eq_self.2 others]
  exact perm

namespace Accounts

theorem silent (accounts : s.Accounts) (consistent : t.Consistent) (prepared : t.prepared = s.prepared)
    (keys : (t.cache.entries.map (·.1)).Nodup) (kept : ∀ entry ∈ t.cache.entries, entry.2.IsKept)
    (perm : t.accounted.Perm s.accounted) (server : t.server = s.server) : t.Accounts := by
  refine ⟨consistent, prepared.trans accounts.prepared, keys, kept, perm.nodup_iff.2 accounts.nodup, ?_⟩
  intro name
  rw [server, accounts.held name, perm.mem_iff]

theorem evictLast (accounts : s.Accounts) : ({ s with cache := s.cache.evictLast } : Session).Accounts := by
  have consistent := accounts.consistent.evictLast
  unfold StatementCache.evictLast at consistent ⊢
  cases last : s.cache.entries.getLast? with
  | none => exact accounts
  | some entry =>
    rw [last] at consistent
    have entries := List.dropLast_append_getLast? entry last
    have kept := accounts.kept entry (List.mem_of_getLast? last)
    apply accounts.silent consistent rfl
    · exact accounts.keys.sublist ((List.dropLast_sublist _).map _)
    · exact fun other member => accounts.kept other (List.dropLast_subset _ member)
    · unfold accounted
      dsimp only
      rw [Query.close_eq_parsedNames kept]
      conv_rhs => rw [← entries]
      rw [List.flatMap_append, List.flatMap_singleton, List.append_assoc, List.append_assoc]
      exact (List.perm_append_comm_assoc _ _ _).append_left _
    · rfl

theorem clear (accounts : s.Accounts) : ({ s with cache := s.cache.clear } : Session).Accounts := by
  have closed : ∀ entry ∈ s.cache.entries, entry.2.close.2 = entry.2.parsedNames :=
    fun entry member => Query.close_eq_parsedNames (accounts.kept entry member)
  apply accounts.silent accounts.consistent.clear rfl
  · exact List.nodup_nil
  · simp [StatementCache.clear]
  · unfold accounted StatementCache.clear
    dsimp only
    have names : (s.cache.entries.reverse.flatMap (·.2.close.2)).Perm (s.cache.entries.flatMap (·.2.parsedNames)) := by
      rw [← List.flatMap_congr closed]
      exact s.cache.entries.reverse_perm.flatMap_right _
    rw [List.flatMap_nil, List.nil_append, List.append_assoc]
    exact (List.perm_append_comm_assoc _ _ _).trans (names.append_right _)
  · rfl

theorem takeEvicted (accounts : s.Accounts) :
    ({ s with cache := s.cache.takeEvicted.2, released := s.released ++ s.cache.takeEvicted.1 } :
      Session).Accounts := by
  apply accounts.silent accounts.consistent.takeEvicted rfl accounts.keys accounts.kept
  · unfold accounted StatementCache.takeEvicted
    dsimp only
    rw [List.nil_append]
    exact List.perm_append_comm.append_left _
  · rfl

theorem enter (accounts : s.Accounts) {key : CacheKey} (absent : key ∉ s.cache.entries.map (·.1)) {sql : Text}
    {caps : Capabilities} {config : Config} {query : Query} {names : NameSupply}
    (prepared : Query.prepare sql true caps config s.names = .ok (query, names)) :
    ({ s with
      cache := { s.cache with entries := (key, query) :: s.cache.entries }
      names := names } : Session).Accounts := by
  have consistent := accounts.consistent.enter (t := { s with
    cache := { s.cache with entries := (key, query) :: s.cache.entries }
    names := names }) prepared List.perm_middle rfl rfl rfl rfl
  apply accounts.silent consistent rfl
  · exact List.nodup_cons.2 ⟨absent, accounts.keys⟩
  · exact List.forall_mem_cons.2 ⟨.prepare prepared, accounts.kept⟩
  · unfold accounted
    dsimp only
    rw [List.flatMap_cons, Query.parsedNames_prepare prepared, List.nil_append]
  · rfl

theorem evictLast_keys (cache : StatementCache) :
    (cache.evictLast.entries.map (·.1)).Sublist (cache.entries.map (·.1)) := by
  rw [cache.entries_evictLast]
  exact (List.dropLast_sublist _).map _

theorem getOrPrepare (accounts : s.Accounts) {sql : Text} {caps : Capabilities} {config : Config} {query : Query}
    {cache : StatementCache} {names : NameSupply}
    (given : s.cache.getOrPrepare sql caps config s.names = .ok (query, cache, names)) :
    ({ s with cache := cache, names := names } : Session).Accounts := by
  have consistent := accounts.consistent.getOrPrepare given
  unfold StatementCache.getOrPrepare at given
  dsimp only at given
  split at given
  · rename_i found
    cases given
    have perm := entries_perm_of_nodup accounts.keys found
    apply accounts.silent consistent rfl
    · exact (perm.map _).nodup_iff.1 accounts.keys
    · exact fun entry member => accounts.kept entry (perm.mem_iff.2 member)
    · exact (perm.symm.flatMap_right _).append_right _
    · rfl
  · rename_i missing
    have absent := StatementCache.not_mem_keys missing
    cases prepared : Query.prepare (StatementCache.keyOf sql caps config).sql true caps config s.names with
    | error e => rw [prepared] at given; cases given
    | ok new =>
      rw [prepared] at given
      cases given
      split
      · exact accounts.evictLast.enter (fun member => absent ((evictLast_keys s.cache).subset member)) prepared
      · exact accounts.enter absent prepared

theorem unused (accounts : s.Accounts) {key : CacheKey} {query : Query} {later : List (CacheKey × Query)}
    (first : s.cache.entries = (key, query) :: later) {name : StatementName}
    (outside : name ∈ later.flatMap (·.2.parsedNames) ++ (s.cache.evicted ++ s.released)) :
    ¬ query.Uses name.text := by
  have consistent := accounts.consistent
  have all : s.queries = query :: later.map (·.2) := by
    rw [Session.queries, accounts.prepared, first]
    rfl
  have own : query ∈ s.queries := by rw [all]; simp
  obtain ⟨n, rows, rfl, free⟩ : ∃ n rows, name = (StatementName.numbered n).ofRows rows ∧
      StatementName.numbered n ∉ query.keptNames := by
    rcases List.mem_append.1 outside with inside | gone
    · obtain ⟨entry, among, parsed⟩ := List.mem_flatMap.1 inside
      have kept := accounts.kept entry (by rw [first]; exact List.mem_cons_of_mem _ among)
      have other : entry.2 ∈ s.queries := by
        rw [all]
        exact List.mem_cons_of_mem _ (List.mem_map_of_mem among)
      have uses := ((Query.mem_parsedNames kept (consistent.agrees _ other) name).1 parsed).1
      obtain ⟨base, member, rows, -, same⟩ := uses.of_names
      rw [← kept.keptNames] at member
      obtain ⟨n, -, rfl⟩ := consistent.numbered _ other base member
      refine ⟨n, rows, StatementName.eq_of_text same, fun taken => ?_⟩
      -- The number would stand twice among all kept names.
      have distinct := consistent.distinct
      rw [all, List.flatMap_cons, List.nodup_append] at distinct
      exact distinct.2.2 _ taken _ (List.mem_flatMap.2 ⟨entry.2, List.mem_map_of_mem among, member⟩) rfl
    · obtain ⟨n, -, ⟨rows, same⟩, free⟩ := consistent.gone name gone
      exact ⟨n, rows, same, free query own⟩
  intro uses
  exact not_owns (consistent.numbered query own) free (uses.owns (StatementName.text_ofRows_numbered_ne n rows))

theorem call (accounts : s.Accounts) {key : CacheKey} {later : List (CacheKey × Query)} {query query' : Query}
    {pipelines : List (List Request)} {c : Connection} {server : Server} {rest : Bytes}
    (first : s.cache.entries = (key, query) :: later) (call : Call s.connection query pipelines c query')
    (converses : Converses s.server pipelines s.connection.incoming server rest) :
    ({ s with cache := s.cache.putBack query', connection := c, server := server } : Session).Accounts := by
  have consistent := (accounts.consistent.step (.callCached first call converses)).1
  have kept := accounts.kept (key, query) (by rw [first]; simp)
  have member : query ∈ s.queries := by
    rw [Session.queries, first]
    simp
  have follows : Query.Follows s.server.held query server.held query' := by
    rw [accounts.consistent.server] at converses
    exact ((accounts.consistent.settles member call).settled converses).after
  have kept' : query'.IsKept := kept.reaches call.reaches
  have entries : (s.cache.putBack query').entries = (key, query') :: later := by
    rw [StatementCache.putBack, first]
  have evicted : (s.cache.putBack query').evicted = s.cache.evicted := by rw [StatementCache.putBack, first]
  have before : s.accounted =
      query.parsedNames ++ (later.flatMap (·.2.parsedNames) ++ (s.cache.evicted ++ s.released)) := by
    rw [accounted, first, List.flatMap_cons, List.append_assoc]
  have behind : ({ s with cache := s.cache.putBack query', connection := c, server := server } : Session).accounted =
      query'.parsedNames ++ (later.flatMap (·.2.parsedNames) ++ (s.cache.evicted ++ s.released)) := by
    rw [accounted, entries, evicted, List.flatMap_cons, List.append_assoc]
  have unused : ∀ name ∈ later.flatMap (·.2.parsedNames) ++ (s.cache.evicted ++ s.released),
      ¬ query.Uses name.text := fun _ outside => accounts.unused first outside
  generalize later.flatMap (·.2.parsedNames) ++ (s.cache.evicted ++ s.released) = others at before behind unused
  have recorded := Query.mem_parsedNames kept (accounts.consistent.agrees query member)
  have recorded' := Query.mem_parsedNames kept' follows.agrees
  rw [follows.uses] at recorded'
  constructor
  case consistent => exact consistent
  case prepared => exact accounts.prepared
  case keys =>
    rw [entries]
    have keys := accounts.keys
    rw [first] at keys
    exact keys
  case kept =>
    rw [entries]
    refine List.forall_mem_cons.2 ⟨kept', fun entry inside => accounts.kept entry ?_⟩
    rw [first]
    exact List.mem_cons_of_mem _ inside
  case nodup =>
    have nodup := accounts.nodup
    rw [before, List.nodup_append] at nodup
    rw [behind, List.nodup_append]
    refine ⟨?_, nodup.2.1, ?_⟩
    · apply Query.nodup_parsedNames kept' follows.agrees
      rw [Query.keptNames_of_names follows.names]
      exact (List.nodup_flatMap.1 accounts.consistent.distinct).1 query member
    · rintro name parsed _ outside rfl
      exact unused name outside ((recorded' name).1 parsed).1
  case held =>
    intro name
    have held := accounts.held name
    rw [before, List.mem_append, recorded] at held
    rw [behind, List.mem_append, recorded']
    by_cases uses : query.Uses name.text
    · have inside : name ∉ others := fun outside => unused name outside uses
      simp [uses, inside]
    · rw [follows.frame name.text uses]
      simpa [uses] using held

theorem step (accounts : s.Accounts) (step : CacheStep s t) : t.Accounts := by
  cases step with
  | getOrPrepare given => exact accounts.getOrPrepare given
  | refused _ => exact accounts
  | call first call converses => exact accounts.call first call converses
  | clear => exact accounts.clear
  | takeEvicted => exact accounts.takeEvicted

end Accounts

theorem CacheReaches.accounts {start : Session} (fresh : start.IsFresh) (reaches : CacheReaches start s) :
    s.Accounts := by
  induction reaches with
  | refl => exact fresh.accounts
  | next _ step ih => exact ih.step step

/-- Beginning with an empty cache of any size, the names that the server holds are at any time those that are
recorded as parsed in the cached queries, those that wait in the cache and those that were taken from it, and
each of them is only one of these, once. -/
theorem held_accounted {start s : Session} (fresh : start.IsFresh) (reaches : CacheReaches start s) :
    (s.cache.entries.flatMap (·.2.parsedNames) ++ (s.cache.evicted ++ s.released)).Nodup ∧
      ∀ name : StatementName, s.server.held name.text ≠ none ↔
        name ∈ s.cache.entries.flatMap (·.2.parsedNames) ++ (s.cache.evicted ++ s.released) := by
  have accounts := reaches.accounts fresh
  exact ⟨accounts.nodup, accounts.held⟩

theorem held_accounted_select :
    ∃ start s : Session, start.IsFresh ∧ CacheReaches start s ∧ s.cache.entries = [] ∧
      s.server.held "q00000" ≠ none ∧ .numbered 0 ∈ s.cache.evicted ∧ s.cache.evicted.Nodup := by
  let start : Session :=
    ⟨[], .empty 1, .fresh, [], ⟨selectReplies, [], true, .default⟩, ⟨fun _ => none, false⟩⟩
  have fresh : start.IsFresh := ⟨rfl, rfl, rfl, fun _ => rfl, rfl, rfl⟩
  let key := StatementCache.keyOf "SELECT 1".toList .default .default
  have given : start.cache.getOrPrepare "SELECT 1".toList .default .default start.names =
      .ok (selectQuery, ⟨1, [(key, selectQuery)], []⟩, ⟨1⟩) := by cbv
  have sent : selectQuery.pipelines (.single []) = [selectRequests] := by rfl
  have converses := select_converses
  rw [← sent] at converses
  have first := CacheReaches.refl.next (.getOrPrepare given)
  have second := first.next (.call rfl (.execute (.single [])) converses)
  have reaches := second.next .clear
  have held : selectHeld "q00000" ≠ none := by
    rw [selectHeld_name]
    exact Option.some_ne_none _
  obtain ⟨distinct, accounted⟩ := held_accounted fresh reaches
  have waiting := (accounted (.numbered 0)).1 held
  change _ ∈ [] ++ (_ ++ []) at waiting
  change ([] ++ (_ ++ [])).Nodup at distinct
  rw [List.nil_append, List.append_nil] at waiting distinct
  exact ⟨start, _, fresh, reaches, rfl, held, waiting, distinct⟩

end Session

end ExtendedQuery
