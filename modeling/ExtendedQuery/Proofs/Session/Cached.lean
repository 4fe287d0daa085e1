import ExtendedQuery.Proofs.Session.Outline
import ExtendedQuery.Proofs.Sql.Statements

/-!
# Queries from a cache

A query is found in a cache by its text, the string mode and whether inserts are merged. These decide all of
what preparing the text makes, except for the names and for the number of rows that an insert takes. So a query
from the cache is the one that would be prepared now, but an insert takes as many rows as it was allowed when it
was prepared (`StatementCache.cached_query`, `StatementCache.cached_query_limit`).
-/

namespace ExtendedQuery

namespace Query

/-- The query without its names, without the rows that an insert takes and without what a server has reported. -/
def plain : Query → Query
  | .single s => .single (.ofFragments s.fragments .unnamed)
  | .batched s => .batched (.ofStatement (.ofFragments s.base .unnamed) 1)
  | .composite statements => .composite (statements.map fun s => .ofFragments s.fragments .unnamed)

def maxRows? : Query → Option Nat
  | .batched s => some s.maxRows
  | _ => none

theorem plain_outline (query : Query) : query.outline.plain = query.plain := by
  cases query with
  | single s => rfl
  | batched s => rfl
  | composite statements =>
    unfold outline plain
    dsimp only
    rw [List.map_map]
    rfl

theorem maxRows?_outline (query : Query) : query.outline.maxRows? = query.maxRows? := by
  cases query <;> rfl

theorem Reaches.plain {query query' : Query} (reaches : query.Reaches query') : query'.plain = query.plain := by
  rw [← plain_outline, reaches.outline, plain_outline]

theorem Reaches.maxRows? {query query' : Query} (reaches : query.Reaches query') :
    query'.maxRows? = query.maxRows? := by
  rw [← maxRows?_outline, reaches.outline, maxRows?_outline]

variable {text : Text} {kept : Bool} {caps caps' : Capabilities} {config config' : Config}
  {names names' : NameSupply} {query : Query}

theorem plain_composite (kept : Bool) (all : List Sql.Fragments) (names : NameSupply) :
    (Query.composite (names.takeFor Statement.ofFragments kept all).1).plain =
      .composite (all.map fun fragments => .ofFragments fragments .unnamed) := by
  have fragments := fragments_takeFor kept all names
  unfold plain
  dsimp only
  nth_rewrite 2 [← fragments]
  rw [List.map_map]
  rfl

theorem maxRows?_of_prepare (prepared : prepare text kept caps config names = .ok (query, names')) :
    query.maxRows? = query.maxRows?.map fun _ => max config.maxBatchRows 1 := by
  cases made_of_prepare prepared with
  | single => rfl
  | batched => rfl
  | composite => rfl

theorem prepare_again (prepared : prepare text kept caps config names = .ok (query, names'))
    (mode : caps'.standardConformingStrings = caps.standardConformingStrings)
    (merges : config'.mergeInserts = config.mergeInserts) (others : NameSupply) :
    ∃ fresh left, prepare text kept caps' config' others = .ok (fresh, left) ∧ query.plain = fresh.plain ∧
      query.maxRows? = fresh.maxRows?.map fun _ => max config.maxBatchRows 1 := by
  unfold prepare at prepared ⊢
  rw [mode, merges]
  split at prepared
  · cases prepared
  · dsimp only at prepared ⊢
    split_ifs at prepared ⊢
    · cases prepared
      exact ⟨_, _, rfl, rfl, rfl⟩
    · cases prepared
      exact ⟨_, _, rfl, rfl, rfl⟩
  · rename_i statements other found
    cases prepared
    exact ⟨_, _, rfl, by rw [plain_composite, plain_composite], rfl⟩

end Query

namespace StatementCache

/-- Caches after calls of their client, with the keys and configurations that were asked for. It is the query that
was asked for last that is executed, on any connection. -/
inductive History : StatementCache → List (CacheKey × Config) → Prop
  | empty (capacity : Nat) : History (.empty capacity) []
  | get {cache cache' : StatementCache} {asked : List (CacheKey × Config)} {sql : Text} {caps : Capabilities}
      {config : Config} {names names' : NameSupply} {query : Query} : History cache asked →
      cache.getOrPrepare sql caps config names = .ok (query, cache', names') →
      History cache' ((keyOf sql caps config, config) :: asked)
  | call {cache : StatementCache} {asked : List (CacheKey × Config)} {key : CacheKey} {query query' : Query}
      {later : List (CacheKey × Query)} {c d : Connection} {pipelines : List (List Request)} :
      History cache asked → cache.entries = (key, query) :: later → Call c query pipelines d query' →
      History (cache.putBack query') asked
  | clear {cache : StatementCache} {asked : List (CacheKey × Config)} : History cache asked →
      History cache.clear asked
  | takeEvicted {cache : StatementCache} {asked : List (CacheKey × Config)} : History cache asked →
      History cache.takeEvicted.2 asked

inductive PreparedFor (asked : List (CacheKey × Config)) : CacheKey × Query → Prop
  | mk {sql : Text} {caps : Capabilities} {config : Config} {names names' : NameSupply} {fresh query : Query} :
      (keyOf sql caps config, config) ∈ asked →
      Query.prepare (Text.trim sql) true caps config names = .ok (fresh, names') → fresh.Reaches query →
      PreparedFor asked (keyOf sql caps config, query)

variable {asked : List (CacheKey × Config)} {cache cache' : StatementCache} {sql : Text} {caps : Capabilities}
  {config : Config} {names names' : NameSupply} {query query' : Query}

theorem PreparedFor.weaken {entry : CacheKey × Query} (made : PreparedFor asked entry)
    (request : CacheKey × Config) : PreparedFor (request :: asked) entry := by
  cases made with
  | mk member prepared reaches => exact .mk (List.mem_cons_of_mem request member) prepared reaches

theorem PreparedFor.reaches {key : CacheKey} (made : PreparedFor asked (key, query)) (later : query.Reaches query') :
    PreparedFor asked (key, query') := by
  cases made with
  | mk member prepared reaches => exact .mk member prepared (reaches.trans later)

theorem getOrPrepare_cases (got : cache.getOrPrepare sql caps config names = .ok (query, cache', names')) :
    ((keyOf sql caps config, query) ∈ cache.entries ∨
      Query.prepare (Text.trim sql) true caps config names = .ok (query, names')) ∧
      cache'.entries ⊆ (keyOf sql caps config, query) :: cache.entries := by
  unfold getOrPrepare at got
  dsimp only at got
  split at got
  · rename_i kept found
    cases got
    constructor
    · exact .inl (mem_entries found)
    · exact List.cons_subset_cons _ (List.filter_subset_self _)
  · change (Query.prepare (Text.trim sql) true caps config names).bind _ = _ at got
    cases prepared : Query.prepare (Text.trim sql) true caps config names with
    | error e =>
      rw [prepared] at got
      cases got
    | ok made =>
      rw [prepared] at got
      cases got
      constructor
      · exact .inr rfl
      · apply List.cons_subset_cons
        split
        · rw [entries_evictLast]
          exact List.dropLast_subset _
        · exact fun _ member => member

theorem preparedFor_of_get (kept : ∀ entry ∈ cache.entries, PreparedFor asked entry)
    (got : cache.getOrPrepare sql caps config names = .ok (query, cache', names')) :
    PreparedFor ((keyOf sql caps config, config) :: asked) (keyOf sql caps config, query) := by
  rcases (getOrPrepare_cases got).1 with found | prepared
  · exact (kept _ found).weaken _
  · exact .mk List.mem_cons_self prepared (.refl query)

theorem History.preparedFor (history : cache.History asked) : ∀ entry ∈ cache.entries, PreparedFor asked entry := by
  induction history with
  | empty => exact nofun
  | get _ got ih =>
    intro entry member
    rcases List.mem_cons.1 ((getOrPrepare_cases got).2 member) with rfl | inside
    · exact preparedFor_of_get ih got
    · exact (ih entry inside).weaken _
  | call _ found call ih =>
    intro entry member
    unfold putBack at member
    rw [found] at member ih
    rcases List.mem_cons.1 member with rfl | inside
    · exact (ih _ List.mem_cons_self).reaches call.reaches
    · exact ih entry (List.mem_cons_of_mem _ inside)
  | clear => exact nofun
  | takeEvicted _ ih => exact ih

/-- A query from a cache is the one that preparing the text gives now, but for its names, for what servers have
reported and for the rows that an insert takes: these are as many as this request or an earlier one with the same
key allowed. -/
theorem cached_query (history : cache.History asked)
    (got : cache.getOrPrepare sql caps config names = .ok (query, cache', names')) (others : NameSupply) :
    ∃ fresh left, Query.prepare (Text.trim sql) true caps config others = .ok (fresh, left) ∧
      query.plain = fresh.plain ∧
      ∃ earlier, (keyOf sql caps config, earlier) ∈ (keyOf sql caps config, config) :: asked ∧
        query.maxRows? = (fresh.maxRows?.map fun _ => max earlier.maxBatchRows 1) ∧
        (earlier.maxBatchRows = config.maxBatchRows → query.maxRows? = fresh.maxRows?) := by
  have made := preparedFor_of_get history.preparedFor got
  generalize key : keyOf sql caps config = entry at made ⊢
  cases made with
  | @mk sql₀ caps₀ earlier _ _ first _ member prepared reaches =>
    have text : Text.trim sql = Text.trim sql₀ := congrArg CacheKey.sql key
    have mode : caps.standardConformingStrings = caps₀.standardConformingStrings :=
      congrArg CacheKey.standardConformingStrings key
    have merges : config.mergeInserts = earlier.mergeInserts := congrArg CacheKey.mergeInserts key
    obtain ⟨fresh, left, again, plain, rows⟩ := Query.prepare_again prepared mode merges others
    rw [← text] at again
    have limit := reaches.maxRows?.trans rows
    refine ⟨fresh, left, again, reaches.plain.trans plain, earlier, member, limit, ?_⟩
    intro same
    rw [limit, same]
    exact (Query.maxRows?_of_prepare again).symm

def insertText : Text := "INSERT INTO t VALUES (?)".toList

def merging (maxRows : Nat) : Config := ⟨true, 4, maxRows⟩

def insertQuery (maxRows : Nat) : Query :=
  .batched (.ofStatement (.ofFragments ⟨"INSERT INTO t VALUES (".toList, [[')']]⟩ (.numbered 0)) maxRows)

def insertCache : StatementCache := ⟨4, [(keyOf insertText .default (merging 128), insertQuery 128)], []⟩

theorem insertQuery_prepare (maxRows : Nat) :
    Query.prepare insertText true .default (merging maxRows) .fresh = .ok (insertQuery maxRows, ⟨1⟩) := by
  have statements : Sql.splitStatements true insertText = .ok [⟨"INSERT INTO t VALUES (".toList, [[')']]⟩] := by cbv
  have growable : Sql.Fragments.isGrowable ⟨"INSERT INTO t VALUES (".toList, [[')']]⟩ = true := by cbv
  unfold Query.prepare
  rw [show Capabilities.default.standardConformingStrings = true from rfl, statements]
  dsimp only
  rw [growable]
  rfl

theorem trim_insertText : Text.trim insertText = insertText := by cbv

theorem insertCache_get :
    (empty 4).getOrPrepare insertText .default (merging 128) .fresh = .ok (insertQuery 128, insertCache, ⟨1⟩) := by
  have prepared : Query.prepare (Text.trim insertText) true .default (merging 128) .fresh =
      .ok (insertQuery 128, ⟨1⟩) := trim_insertText ▸ insertQuery_prepare 128
  unfold getOrPrepare
  change (Query.prepare (Text.trim insertText) true .default (merging 128) .fresh).bind _ = _
  rw [prepared]
  rfl

theorem insertCache_get_again :
    insertCache.getOrPrepare insertText .default (merging 1) ⟨1⟩ = .ok (insertQuery 128, insertCache, ⟨1⟩) := by
  have key : keyOf insertText .default (merging 1) = keyOf insertText .default (merging 128) := rfl
  unfold getOrPrepare
  dsimp only
  rw [key, insertCache, List.lookup_cons_self]
  simp

theorem cached_query_insert :
    (empty 4).History [] ∧
      (empty 4).getOrPrepare insertText .default (merging 128) .fresh = .ok (insertQuery 128, insertCache, ⟨1⟩) ∧
      ∃ fresh left, Query.prepare (Text.trim insertText) true .default (merging 128) .fresh = .ok (fresh, left) ∧
        (insertQuery 128).plain = fresh.plain := by
  obtain ⟨fresh, left, prepared, plain, -⟩ := cached_query (.empty 4) insertCache_get .fresh
  exact ⟨.empty 4, insertCache_get, fresh, left, prepared, plain⟩

/-- The second request allows no insert of more than one row. -/
theorem cached_query_limit :
    insertCache.History [(keyOf insertText .default (merging 128), merging 128)] ∧
      insertCache.getOrPrepare insertText .default (merging 1) ⟨1⟩ = .ok (insertQuery 128, insertCache, ⟨1⟩) ∧
      Query.prepare (Text.trim insertText) true .default (merging 1) .fresh = .ok (insertQuery 1, ⟨1⟩) ∧
      (insertQuery 128).maxRows? = some 128 ∧ (insertQuery 1).maxRows? = some 1 := by
  refine ⟨.get (.empty 4) insertCache_get, insertCache_get_again, ?_, rfl, rfl⟩
  rw [trim_insertText]
  exact insertQuery_prepare 1

end StatementCache

end ExtendedQuery
