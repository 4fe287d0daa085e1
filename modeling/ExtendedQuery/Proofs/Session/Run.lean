import ExtendedQuery.Cache
import ExtendedQuery.Proofs.Session.Prepare
import Mathlib

/-!
# Sessions

A client prepares queries, by itself or through a cache, executes them alone or in batches, and closes the
statements that have left the cache, in any order (`Session.Step`). After every step of every session what
the client has recorded of a statement is what the server holds, and the server can follow all that the
client sends (`Session.records_agree`).
-/

namespace ExtendedQuery

open Wire

structure Session where
  prepared : List Query
  cache : StatementCache
  names : NameSupply
  /-- All names that the cache has given away to be closed. -/
  released : List StatementName
  connection : Connection
  server : Server

inductive Call (c : Connection) (query : Query) : List (List Request) → Connection → Query → Prop
  | execute (parameters : Parameters) :
      Call c query (query.pipelines parameters) (query.execute parameters c).connection
        (query.execute parameters c).query
  | batch (rows : List Parameters) :
      Call c query (Batch.pipelines ⟨query, rows⟩ c) (Batch.execute ⟨query, rows⟩ c).2.2
        (Batch.execute ⟨query, rows⟩ c).2.1.query

theorem Call.settles {c d : Connection} {query query' : Query} {pipelines : List (List Request)}
    (call : Call c query pipelines d query') {held : Holdings} (agrees : query.Agrees held)
    (distinct : query.keptNames.Nodup) (writable : c.writable = true) :
    Settles held c pipelines d fun held' => Query.Follows held query held' query' := by
  cases call with
  | execute parameters => exact Query.execute_settles agrees distinct parameters writable
  | batch rows =>
    have settles := @Batch.execute_settles ⟨query, rows⟩
    exact settles agrees distinct writable

namespace StatementCache

variable {cache : StatementCache} {key : CacheKey} {query : Query}

theorem mem_entries (found : cache.entries.lookup key = some query) : (key, query) ∈ cache.entries := by
  obtain ⟨front, later, same, -⟩ := List.lookup_eq_some_iff.1 found
  rw [same]
  exact List.mem_append_right front List.mem_cons_self

theorem not_mem_keys (missing : cache.entries.lookup key = none) : key ∉ cache.entries.map (·.1) := by
  intro member
  obtain ⟨entry, inside, same⟩ := List.mem_map.1 member
  have other := List.lookup_eq_none_iff.1 missing entry inside
  simp [same] at other

theorem entries_evictLast (cache : StatementCache) : cache.evictLast.entries = cache.entries.dropLast := by
  unfold evictLast
  split
  next nothing =>
    rw [List.getLast?_eq_none_iff] at nothing
    rw [nothing]
    rfl
  next => rfl

end StatementCache

namespace Session

def queries (s : Session) : List Query := s.prepared ++ s.cache.entries.map (·.2)

inductive Step (s : Session) : List (List Request) → Session → Prop
  | prepare {sql : Text} {kept : Bool} {caps : Capabilities} {config : Config} {query : Query}
      {names : NameSupply} : Query.prepare sql kept caps config s.names = .ok (query, names) →
      Step s [] { s with prepared := query :: s.prepared, names := names }
  | getOrPrepare {sql : Text} {caps : Capabilities} {config : Config} {query : Query}
      {cache : StatementCache} {names : NameSupply} :
      s.cache.getOrPrepare sql caps config s.names = .ok (query, cache, names) →
      Step s [] { s with cache := cache, names := names }
  | call {before after : List Query} {query query' : Query} {pipelines : List (List Request)}
      {c : Connection} {server : Server} {rest : Bytes} : s.prepared = before ++ query :: after →
      Call s.connection query pipelines c query' →
      Converses s.server pipelines s.connection.incoming server rest →
      Step s pipelines { s with prepared := before ++ query' :: after, connection := c, server := server }
  | callCached {key : CacheKey} {later : List (CacheKey × Query)} {query query' : Query}
      {pipelines : List (List Request)} {c : Connection} {server : Server} {rest : Bytes} :
      s.cache.entries = (key, query) :: later → Call s.connection query pipelines c query' →
      Converses s.server pipelines s.connection.incoming server rest →
      Step s pipelines { s with cache := s.cache.putBack query', connection := c, server := server }
  | clear : Step s [] { s with cache := s.cache.clear }
  | takeEvicted :
      Step s [] { s with cache := s.cache.takeEvicted.2, released := s.released ++ s.cache.takeEvicted.1 }
  | close {names : List StatementName} {server : Server} {rest : Bytes} : names ⊆ s.released →
      Converses s.server (Connection.closePipelines names) s.connection.incoming server rest →
      Step s (Connection.closePipelines names)
        { s with connection := (s.connection.closeStatements names).2, server := server }

inductive Reaches (start : Session) : Session → Prop
  | refl : Reaches start start
  | next {s t : Session} {pipelines : List (List Request)} : Reaches start s → Step s pipelines t →
      Reaches start t

structure IsFresh (s : Session) : Prop where
  queries : s.queries = []
  evicted : s.cache.evicted = []
  released : s.released = []
  held : ∀ name, s.server.held name = none
  ready : s.server.skipping = false
  writable : s.connection.writable = true

structure Consistent (s : Session) : Prop where
  agrees : ∀ query ∈ s.queries, query.Agrees s.server.held
  distinct : (s.queries.flatMap Query.keptNames).Nodup
  numbered : ∀ query ∈ s.queries, ∀ name ∈ query.keptNames, ∃ n < s.names.next, name = .numbered n
  held : ∀ name, name ≠ "" → s.server.held name ≠ none →
    ∃ n < s.names.next, ∃ rows, name = ((StatementName.numbered n).ofRows rows).text
  gone : ∀ name ∈ s.cache.evicted ++ s.released, ∃ n < s.names.next,
    (∃ rows, name = (StatementName.numbered n).ofRows rows) ∧
      ∀ query ∈ s.queries, StatementName.numbered n ∉ query.keptNames
  ready : s.server.skipping = false
  writable : s.connection.writable = true

theorem IsFresh.consistent {s : Session} (fresh : s.IsFresh) : s.Consistent := by
  refine ⟨?_, ?_, ?_, fun name _ some => absurd (fresh.held name) some, ?_, fresh.ready, fresh.writable⟩
  · simp [fresh.queries]
  · simp [fresh.queries]
  · simp [fresh.queries]
  · simp [fresh.evicted, fresh.released]

theorem not_owns {query : Query} {n rows : Nat} {next : Nat}
    (numbered : ∀ name ∈ query.keptNames, ∃ n < next, name = .numbered n)
    (free : StatementName.numbered n ∉ query.keptNames) :
    ¬ query.Owns ((StatementName.numbered n).ofRows rows).text := by
  rintro ⟨base, member, rows', -, same⟩
  obtain ⟨m, -, rfl⟩ := numbered base member
  have number := StatementName.ofRows_numbered_inj (StatementName.eq_of_text same)
  exact free (number ▸ member)

namespace Consistent

variable {s t : Session}

theorem leave (consistent : s.Consistent) {gone : List Query} (perm : s.queries.Perm (t.queries ++ gone))
    (names : t.names = s.names) (connection : t.connection = s.connection) (server : t.server = s.server)
    (left : ∀ name ∈ t.cache.evicted ++ t.released,
      name ∈ s.cache.evicted ++ s.released ∨ ∃ query ∈ gone, name ∈ query.close.2) : t.Consistent := by
  have member : ∀ {query}, query ∈ t.queries → query ∈ s.queries :=
    fun inside => perm.mem_iff.2 (List.mem_append_left _ inside)
  have distinct := (perm.flatMap_right Query.keptNames).nodup_iff.1 consistent.distinct
  rw [List.flatMap_append, List.nodup_append] at distinct
  constructor
  · rw [server]
    exact fun query inside => consistent.agrees query (member inside)
  · exact distinct.1
  · rw [names]
    exact fun query inside => consistent.numbered query (member inside)
  · rw [names, server]
    exact consistent.held
  · rw [names]
    intro name inside
    rcases left name inside with before | ⟨query, away, closed⟩
    · obtain ⟨n, below, form, free⟩ := consistent.gone name before
      exact ⟨n, below, form, fun query inside => free query (member inside)⟩
    · have query_mem := perm.mem_iff.2 (List.mem_append_right t.queries away)
      obtain ⟨base, kept, rows, rfl⟩ := Query.mem_close (consistent.agrees query query_mem) closed
      obtain ⟨n, below, rfl⟩ := consistent.numbered query query_mem base kept
      refine ⟨n, below, ⟨rows, rfl⟩, fun other inside kept' => ?_⟩
      -- The number would stand twice among all kept names.
      exact distinct.2.2 _ (List.mem_flatMap.2 ⟨other, inside, kept'⟩) _
        (List.mem_flatMap.2 ⟨query, away, kept⟩) rfl
  · rw [server]
    exact consistent.ready
  · rw [connection]
    exact consistent.writable

theorem enter (consistent : s.Consistent) {sql : Text} {kept : Bool} {caps : Capabilities}
    {config : Config} {query : Query} {names : NameSupply}
    (prepared : Query.prepare sql kept caps config s.names = .ok (query, names))
    (perm : t.queries.Perm (query :: s.queries)) (supply : t.names = names)
    (connection : t.connection = s.connection) (server : t.server = s.server)
    (left : t.cache.evicted ++ t.released = s.cache.evicted ++ s.released) : t.Consistent := by
  subst supply
  obtain ⟨taken, agrees⟩ := Query.prepare_taken prepared
  have le := taken.le
  have fresh : ∀ name ∈ query.keptNames, ∃ n, s.names.next ≤ n ∧ n < t.names.next ∧ name = .numbered n := by
    intro name member
    obtain ⟨inside, named⟩ := Query.mem_keptNames.1 member
    exact taken.numbered name inside named
  have members : ∀ {P : Query → Prop}, P query → (∀ other ∈ s.queries, P other) → ∀ other ∈ t.queries, P other := by
    intro P first later other inside
    rcases List.mem_cons.1 (perm.mem_iff.1 inside) with rfl | inside
    · exact first
    · exact later other inside
  constructor
  · rw [server]
    refine members (agrees _ fun name member rows positive => ?_) consistent.agrees
    obtain ⟨n, above, -, rfl⟩ := fresh name member
    by_contra some
    obtain ⟨m, below, rows', same⟩ :=
      consistent.held _ (StatementName.text_ofRows_numbered_ne n rows) some
    have number := StatementName.ofRows_numbered_inj (StatementName.eq_of_text same)
    omega
  · rw [(perm.flatMap_right Query.keptNames).nodup_iff, List.flatMap_cons, List.nodup_append]
    refine ⟨taken.distinct, consistent.distinct, fun name new other old same => ?_⟩
    subst same
    obtain ⟨n, above, -, rfl⟩ := fresh name new
    obtain ⟨query', inside, kept⟩ := List.mem_flatMap.1 old
    obtain ⟨m, below, same⟩ := consistent.numbered query' inside _ kept
    have number := StatementName.numbered_inj same
    omega
  · refine members (fun name member => ?_) fun other inside name member => ?_
    · obtain ⟨n, -, below, same⟩ := fresh name member
      exact ⟨n, below, same⟩
    · obtain ⟨n, below, same⟩ := consistent.numbered other inside name member
      exact ⟨n, by omega, same⟩
  · rw [server]
    intro name nonempty some
    obtain ⟨n, below, form⟩ := consistent.held name nonempty some
    exact ⟨n, by omega, form⟩
  · rw [left]
    intro name inside
    obtain ⟨n, below, form, free⟩ := consistent.gone name inside
    refine ⟨n, by omega, form, members (fun member => ?_) free⟩
    obtain ⟨m, above, -, same⟩ := fresh _ member
    have number := StatementName.numbered_inj same
    omega
  · rw [server]
    exact consistent.ready
  · rw [connection]
    exact consistent.writable

theorem call (consistent : s.Consistent) {query query' : Query} {others : List Query}
    (before : s.queries.Perm (query :: others)) (behind : t.queries.Perm (query' :: others))
    (follows : Query.Follows s.server.held query t.server.held query') (names : t.names = s.names)
    (left : t.cache.evicted ++ t.released = s.cache.evicted ++ s.released)
    (ready : t.server.skipping = false) (writable : t.connection.writable = true) : t.Consistent := by
  have kept := Query.keptNames_of_names follows.names
  have agrees : ∀ q ∈ query :: others, q.Agrees s.server.held :=
    fun q member => consistent.agrees q (before.mem_iff.2 member)
  have numbered : ∀ q ∈ query :: others, ∀ name ∈ q.keptNames, ∃ n < s.names.next, name = .numbered n :=
    fun q member => consistent.numbered q (before.mem_iff.2 member)
  have distinct := (before.flatMap_right Query.keptNames).nodup_iff.1 consistent.distinct
  constructor
  · intro q inside
    rcases List.mem_cons.1 (behind.mem_iff.1 inside) with rfl | inside
    · exact follows.agrees
    · -- Names of different numbers are different for all numbers of rows.
      refine Query.agrees_frame (agrees q (by simp [inside])) fun name owns => ?_
      obtain ⟨base, member, rows, positive, rfl⟩ := owns
      obtain ⟨n, -, rfl⟩ := numbered q (by simp [inside]) base member
      refine follows.frame _ fun uses => ?_
      refine not_owns (numbered query (by simp)) (fun own => ?_)
        (uses.owns (StatementName.text_ofRows_numbered_ne n rows))
      rw [List.flatMap_cons, List.nodup_append] at distinct
      exact distinct.2.2 _ own _ (List.mem_flatMap.2 ⟨q, inside, member⟩) rfl
  · rw [(behind.flatMap_right Query.keptNames).nodup_iff, List.flatMap_cons, kept]
    exact distinct
  · rw [names]
    intro q inside
    rcases List.mem_cons.1 (behind.mem_iff.1 inside) with rfl | inside
    · rw [kept]
      exact numbered query (by simp)
    · exact numbered q (by simp [inside])
  · rw [names]
    intro name nonempty some
    by_cases owns : query.Owns name
    · obtain ⟨base, member, rows, -, rfl⟩ := owns
      obtain ⟨n, below, rfl⟩ := numbered query (by simp) base member
      exact ⟨n, below, rows, rfl⟩
    · rw [follows.frame name fun uses => owns (uses.owns nonempty)] at some
      exact consistent.held name nonempty some
  · rw [names, left]
    intro name inside
    obtain ⟨n, below, form, free⟩ := consistent.gone name inside
    refine ⟨n, below, form, fun q inside => ?_⟩
    rcases List.mem_cons.1 (behind.mem_iff.1 inside) with rfl | inside
    · rw [kept]
      exact free query (before.mem_iff.2 (by simp))
    · exact free q (before.mem_iff.2 (by simp [inside]))
  · exact ready
  · exact writable

theorem close (consistent : s.Consistent) {closed : List StatementName} (released : closed ⊆ s.released)
    {c : Connection} {server : Server}
    (frame : ∀ name, (∀ other ∈ closed, name ≠ other.text) → server.held name = s.server.held name)
    (ready : server.skipping = false) (writable : c.writable = true) :
    ({ s with connection := c, server := server } : Session).Consistent := by
  refine ⟨fun query inside => ?_, consistent.distinct, consistent.numbered, fun name nonempty some => ?_,
    consistent.gone, ready, writable⟩
  · refine Query.agrees_frame (consistent.agrees query inside) fun name owns => frame name ?_
    rintro other member rfl
    obtain ⟨n, -, ⟨rows, rfl⟩, free⟩ := consistent.gone other (List.mem_append_right _ (released member))
    exact not_owns (consistent.numbered query inside) (free query inside) owns
  · by_cases away : ∃ other ∈ closed, name = other.text
    · obtain ⟨other, member, rfl⟩ := away
      obtain ⟨n, below, ⟨rows, rfl⟩, -⟩ := consistent.gone other (List.mem_append_right _ (released member))
      exact ⟨n, below, rows, rfl⟩
    · refine consistent.held name nonempty ?_
      rwa [← frame name fun other member same => away ⟨other, member, same⟩]

end Consistent

variable {s : Session}

theorem queries_perm {entries away : List (CacheKey × Query)}
    (perm : s.cache.entries.Perm (entries ++ away)) :
    s.queries.Perm (s.prepared ++ entries.map (·.2) ++ away.map (·.2)) := by
  rw [List.append_assoc, ← List.map_append]
  exact (perm.map _).append_left _

theorem Consistent.evictLast (consistent : s.Consistent) :
    ({ s with cache := s.cache.evictLast } : Session).Consistent := by
  unfold StatementCache.evictLast
  cases last : s.cache.entries.getLast? with
  | none => exact consistent
  | some entry =>
    have split : s.cache.entries.Perm (s.cache.entries.dropLast ++ [entry]) := by
      rw [List.dropLast_append_getLast? entry last]
    refine consistent.leave (queries_perm split) rfl rfl rfl fun name member => ?_
    dsimp only at member
    rw [List.append_assoc, List.mem_append, List.mem_append] at member
    rcases member with old | closed | old
    · exact .inl (List.mem_append_left _ old)
    · exact .inr ⟨entry.2, by simp, closed⟩
    · exact .inl (List.mem_append_right _ old)

theorem Consistent.clear (consistent : s.Consistent) :
    ({ s with cache := s.cache.clear } : Session).Consistent := by
  refine consistent.leave (queries_perm (List.Perm.refl _ : s.cache.entries.Perm ([] ++ s.cache.entries)))
    rfl rfl rfl fun name member => ?_
  dsimp only [StatementCache.clear] at member
  rw [List.append_assoc, List.mem_append, List.mem_append] at member
  rcases member with old | closed | old
  · exact .inl (List.mem_append_left _ old)
  · obtain ⟨entry, inside, closed⟩ := List.mem_flatMap.1 closed
    exact .inr ⟨entry.2, List.mem_map_of_mem (List.mem_reverse.1 inside), closed⟩
  · exact .inl (List.mem_append_right _ old)

theorem Consistent.takeEvicted (consistent : s.Consistent) :
    ({ s with cache := s.cache.takeEvicted.2, released := s.released ++ s.cache.takeEvicted.1 } :
      Session).Consistent := by
  have all : s.cache.entries.Perm (s.cache.entries ++ []) := by rw [List.append_nil]
  refine consistent.leave (queries_perm all) rfl rfl rfl fun name member => .inl ?_
  dsimp only [StatementCache.takeEvicted] at member
  rw [List.nil_append, List.mem_append] at member
  exact List.mem_append.2 member.symm

theorem entries_perm {entries : List (CacheKey × Query)} {key : CacheKey} {query : Query}
    (found : entries.lookup key = some query) :
    ∃ away, entries.Perm ((key, query) :: entries.filter (·.1 != key) ++ away) := by
  obtain ⟨front, back, rfl, -⟩ := List.lookup_eq_some_iff.1 found
  refine ⟨(front ++ back).filter fun entry => !(entry.1 != key), List.perm_middle.trans ?_⟩
  rw [List.filter_append, List.filter_cons_of_neg (by simp), ← List.filter_append, List.cons_append]
  exact (List.filter_append_perm _ _).symm.cons _

theorem Consistent.getOrPrepare (consistent : s.Consistent) {sql : Text} {caps : Capabilities}
    {config : Config} {query : Query} {cache : StatementCache} {names : NameSupply}
    (given : s.cache.getOrPrepare sql caps config s.names = .ok (query, cache, names)) :
    ({ s with cache := cache, names := names } : Session).Consistent := by
  unfold StatementCache.getOrPrepare at given
  dsimp only at given
  split at given
  · rename_i found
    cases given
    obtain ⟨away, perm⟩ := entries_perm found
    exact consistent.leave (queries_perm perm) rfl rfl rfl fun name member => .inl member
  · cases prepared : Query.prepare (StatementCache.keyOf sql caps config).sql true caps config s.names with
    | error e => rw [prepared] at given; cases given
    | ok new =>
      rw [prepared] at given
      cases given
      split
      · exact consistent.evictLast.enter prepared List.perm_middle rfl rfl rfl rfl
      · exact consistent.enter prepared List.perm_middle rfl rfl rfl rfl

theorem Consistent.settles (consistent : s.Consistent) {query query' : Query} (member : query ∈ s.queries)
    {pipelines : List (List Request)} {c : Connection} (call : Call s.connection query pipelines c query') :
    Settles s.server.held s.connection pipelines c fun held =>
      Query.Follows s.server.held query held query' := by
  have distinct := (List.nodup_flatMap.1 consistent.distinct).1 query member
  exact call.settles (consistent.agrees query member) distinct consistent.writable

theorem Consistent.server (consistent : s.Consistent) : s.server = ⟨s.server.held, false⟩ := by
  rw [← consistent.ready]

theorem Consistent.step {t : Session} {pipelines : List (List Request)} (consistent : s.Consistent)
    (step : Step s pipelines t) :
    t.Consistent ∧ Obeys s.server pipelines s.connection.incoming ∧ Sends s.connection pipelines t.connection := by
  have silent : Sends s.connection [] s.connection := ⟨[], (List.append_nil _).symm, .nil⟩
  cases step with
  | prepare prepared => exact ⟨consistent.enter prepared (List.Perm.refl _) rfl rfl rfl rfl, trivial, silent⟩
  | getOrPrepare given => exact ⟨consistent.getOrPrepare given, trivial, silent⟩
  | @call before after query query' _ c server rest among call converses =>
    have perm : ∀ q, (before ++ q :: after ++ s.cache.entries.map (·.2)).Perm
        (q :: (before ++ (after ++ s.cache.entries.map (·.2)))) := by
      intro q
      rw [List.append_assoc, List.cons_append]
      exact List.perm_middle
    have all : s.queries = before ++ query :: after ++ s.cache.entries.map (·.2) := by
      rw [queries, among]
    have settles := consistent.settles (all ▸ by simp) call
    rw [consistent.server] at converses ⊢
    have settled := settles.settled converses
    refine ⟨consistent.call (all ▸ perm query) (perm query') settled.after rfl rfl settled.ready
      settled.writable, settles.obeys, settled.sent⟩
  | @callCached key later query query' _ c server rest first call converses =>
    have perm : ∀ q, (s.prepared ++ ((key, q) :: later).map (·.2)).Perm
        (q :: (s.prepared ++ later.map (·.2))) := fun q => List.perm_middle
    have all : s.queries = s.prepared ++ ((key, query) :: later).map (·.2) := by rw [queries, first]
    have settles := consistent.settles (all ▸ by simp) call
    rw [consistent.server] at converses ⊢
    have settled := settles.settled converses
    refine ⟨?_, settles.obeys, settled.sent⟩
    refine consistent.call (all ▸ perm query) ?_ settled.after rfl ?_ settled.ready settled.writable
    · rw [queries, StatementCache.putBack, first]
      exact perm query'
    · rw [StatementCache.putBack, first]
  | clear => exact ⟨consistent.clear, trivial, silent⟩
  | takeEvicted => exact ⟨consistent.takeEvicted, trivial, silent⟩
  | @close closed server rest released converses =>
    have settles := Connection.closeStatements_settles closed s.server.held consistent.writable
    rw [consistent.server] at converses ⊢
    have settled := settles.settled converses
    exact ⟨consistent.close released settled.after settled.ready settled.writable, settles.obeys, settled.sent⟩

theorem Reaches.consistent {start : Session} (fresh : start.IsFresh) (reaches : Reaches start s) :
    s.Consistent := by
  induction reaches with
  | refl => exact fresh.consistent
  | next _ step ih => exact (ih.step step).1

end Session

/-- What a query has recorded of a statement that is kept under a name, and the text of the statement. A
batched insert has a record for each number of rows. -/
inductive Query.Recorded : Query → (name sql : String) → Option (List Oid) → Prop
  | single {s : Statement} : s.name.isUnnamed = false →
      Recorded (.single s) s.name.text (String.ofList s.sql) s.prepared
  | batched {s : BatchedStatement} {rows : Nat} : s.baseName.isUnnamed = false → 0 < rows →
      Recorded (.batched s) (s.baseName.ofRows rows).text (s.sqlOf rows) (s.preparedAt rows)
  | composite {statements : List Statement} {s : Statement} : s ∈ statements → s.name.isUnnamed = false →
      Recorded (.composite statements) s.name.text (String.ofList s.sql) s.prepared

theorem Query.Recorded.reflects {query : Query} {name sql : String} {recorded : Option (List Oid)}
    (record : query.Recorded name sql recorded) {held : Holdings} (agrees : query.Agrees held) :
    Reflects sql recorded (held name) := by
  cases record with
  | single named => exact agrees.named named
  | batched named positive => exact agrees.named named _ positive
  | composite member named => exact (agrees _ member).named named

/-- In every session a statement is recorded as parsed exactly if the server holds its name, with its text
and with types that fit the recorded ones, and every step sends what the server can follow. -/
theorem Session.records_agree {start s : Session} (fresh : start.IsFresh) (reaches : Reaches start s) :
    (∀ query ∈ s.queries, ∀ {name sql recorded}, query.Recorded name sql recorded →
      Reflects sql recorded (s.server.held name)) ∧
    ∀ {pipelines next}, Step s pipelines next →
      Obeys s.server pipelines s.connection.incoming ∧ Sends s.connection pipelines next.connection := by
  have consistent := reaches.consistent fresh
  refine ⟨fun query member _ _ _ record => record.reflects (consistent.agrees query member), ?_⟩
  exact fun step => (consistent.step step).2

def selectQuery : Query := .single (.ofFragments ⟨"SELECT 1".toList, []⟩ (.numbered 0))

def selectRequests : List Request :=
  [⟨"SELECT 1", [], .parse ⟨"q00000", "SELECT 1", 0, []⟩⟩,
    ⟨"SELECT 1", [], .describe statementTarget "q00000"⟩,
    ⟨"SELECT 1", [], .bind ⟨"", "q00000", 0, [], 0, 0, [], 0, []⟩⟩,
    ⟨"SELECT 1", [], .execute "" 0⟩]

def selectReplies : Bytes :=
  backendFrame 0x31 [] ++ (backendFrame 0x74 [0, 0] ++ (backendFrame 0x6E [] ++ (backendFrame 0x32 [] ++
    (backendFrame 0x49 [] ++ (backendFrame 0x5A [0x49] ++ [])))))

def selectHeld : Holdings := Function.update (fun _ => none) "q00000" (some ⟨"SELECT 1", []⟩)

theorem selectHeld_name : selectHeld "q00000" = some ⟨"SELECT 1", []⟩ := Function.update_self _ _ _

theorem select_converses :
    Converses ⟨fun _ => none, false⟩ [selectRequests] selectReplies ⟨selectHeld, false⟩ [] := by
  have parsed : Accepts (fun _ => none) (.parse ⟨"q00000", "SELECT 1", 0, []⟩) [.parseComplete] selectHeld :=
    .parse (.inr rfl) (List.Forall₂.nil : Resolves [] [])
  have described : Accepts selectHeld (.describe statementTarget "q00000")
      [.parameterDescription 0 [], .noData] selectHeld := .describe selectHeld_name rfl .noData
  have executed : Accepts selectHeld (.execute "" 0) ([] ++ [.emptyQueryResponse]) selectHeld :=
    .execute (by simp) .empty
  refine .cons (.cons (.accept parsed) (.cons (.accept described) (.cons (.accept (.bind selectHeld_name))
    (.cons (.accept executed) (.cons .ready .nil))))) ?_ .nil
  refine .message (by decide) (by decide) (by decide) rfl ?_
  refine .message (by decide) (by decide) (by decide) rfl ?_
  refine .message (by decide) (by decide) (by decide) rfl ?_
  refine .message (by decide) (by decide) (by decide) rfl ?_
  refine .message (by decide) (by decide) (by decide) rfl ?_
  exact .message (by decide) (by decide) (by decide) rfl .nil

theorem Session.records_agree_select :
    ∃ start s : Session, start.IsFresh ∧ Reaches start s ∧
      s.server.held "q00000" = some ⟨"SELECT 1", []⟩ ∧ s.queries ≠ [] ∧
      ∀ query ∈ s.queries, ∀ {name sql recorded}, query.Recorded name sql recorded →
        Reflects sql recorded (s.server.held name) := by
  let start : Session :=
    ⟨[], .empty 1, .fresh, [], ⟨selectReplies, [], true, .default⟩, ⟨fun _ => none, false⟩⟩
  have fresh : start.IsFresh := ⟨rfl, rfl, rfl, fun _ => rfl, rfl, rfl⟩
  have prepared : Query.prepare "SELECT 1".toList true .default .default .fresh = .ok (selectQuery, ⟨1⟩) := by
    cbv
  have sent : selectQuery.pipelines (.single []) = [selectRequests] := by rfl
  have converses := select_converses
  rw [← sent] at converses
  have first : Reaches start { start with prepared := [selectQuery], names := ⟨1⟩ } :=
    .next .refl (.prepare prepared)
  have among : [selectQuery] = [] ++ selectQuery :: [] := rfl
  have reaches := first.next (.call among (.execute (.single [])) converses)
  exact ⟨start, _, fresh, reaches, selectHeld_name, by simp [Session.queries],
    (records_agree fresh reaches).1⟩

end ExtendedQuery
