import ExtendedQuery.Proofs.Session.Cached
import ExtendedQuery.Proofs.Session.Ownership

/-!
# What a cache keeps

A cache keeps the queries of the keys that were asked for last (`recency`). A request for one of them returns the
query as the calls have left it. Any other query is prepared first, and only then the query leaves whose key was
not asked for the longest time; a request that is refused changes nothing (`Serves`). Main statement:
`least_recent_leaves`.
-/

namespace ExtendedQuery

namespace StatementCache

def keys (cache : StatementCache) : List CacheKey := cache.entries.map (·.1)

/-- The steps of a request. What was done before a request fails stays done. -/
def request (sql : Text) (caps : Capabilities) (config : Config) :
    StateM (StatementCache × NameSupply) (Except Sql.Unterminated Query) := do
  let key := keyOf sql caps config
  let (cache, names) ← get
  match cache.entries.lookup key with
  | some query =>
    set ({ cache with entries := cache.entries.filter (·.1 != key) }, names)
    modify fun (cache, names) => ({ cache with entries := (key, query) :: cache.entries }, names)
    return .ok query
  | none =>
    match Query.prepare key.sql true caps config names with
    | .error e => return .error e
    | .ok (query, names) =>
      set (cache, names)
      if cache.size = cache.capacity then modify fun (cache, names) => (cache.evictLast, names)
      modify fun (cache, names) => ({ cache with entries := (key, query) :: cache.entries }, names)
      return .ok query

def ask (cache : StatementCache) (sql : Text) (caps : Capabilities) (config : Config) (names : NameSupply) :
    Except Sql.Unterminated Query × StatementCache × NameSupply :=
  ((request sql caps config).run (cache, names)).run

def makeRoom (cache : StatementCache) : StatementCache :=
  if cache.size = cache.capacity then cache.evictLast else cache

theorem makeRoom_entries {cache : StatementCache} (few : cache.size ≤ cache.capacity) :
    cache.makeRoom.entries = cache.entries.take (cache.capacity - 1) := by
  unfold makeRoom
  split
  next full => rw [entries_evictLast, List.dropLast_eq_take, ← full, size]
  next room =>
    unfold size at few room
    rw [List.take_of_length_le (by omega)]

theorem makeRoom_capacity (cache : StatementCache) : cache.makeRoom.capacity = cache.capacity := by
  unfold makeRoom evictLast
  split
  · split <;> rfl
  · rfl

section

variable (cache : StatementCache) (sql : Text) (caps : Capabilities) (config : Config) (names : NameSupply)

theorem ask_eq :
    cache.ask sql caps config names =
      match cache.getOrPrepare sql caps config names with
      | .ok (query, cache, names) => (.ok query, cache, names)
      | .error e => (.error e, cache, names) := by
  unfold ask request getOrPrepare
  dsimp only
  cases found : cache.entries.lookup (keyOf sql caps config) with
  | some query => simp [found]
  | none =>
    cases prepared : Query.prepare (keyOf sql caps config).sql true caps config names with
    | error e => simp [found, prepared]
    | ok made => by_cases full : cache.size = cache.capacity <;> simp [found, prepared, full]

theorem ask_cases :
    (∃ query, cache.entries.lookup (keyOf sql caps config) = some query ∧
      cache.ask sql caps config names = (.ok query, { cache with
        entries := (keyOf sql caps config, query) :: cache.entries.filter (·.1 != keyOf sql caps config) }, names)) ∨
    (∃ e, cache.entries.lookup (keyOf sql caps config) = none ∧
      Query.prepare (Text.trim sql) true caps config names = .error e ∧
      cache.ask sql caps config names = (.error e, cache, names)) ∨
    ∃ query names', cache.entries.lookup (keyOf sql caps config) = none ∧
      Query.prepare (Text.trim sql) true caps config names = .ok (query, names') ∧
      cache.ask sql caps config names = (.ok query, { cache.makeRoom with
        entries := (keyOf sql caps config, query) :: cache.makeRoom.entries }, names') := by
  rw [ask_eq, getOrPrepare]
  cases found : cache.entries.lookup (keyOf sql caps config) with
  | some query =>
    left
    exact ⟨query, rfl, rfl⟩
  | none =>
    right
    cases prepared : Query.prepare (Text.trim sql) true caps config names with
    | error e =>
      left
      refine ⟨e, rfl, rfl, ?_⟩
      simp only [keyOf, prepared]
      rfl
    | ok made =>
      right
      refine ⟨made.1, made.2, rfl, rfl, ?_⟩
      simp only [keyOf, prepared]
      rfl

end

/-- The keys that were asked for, each one once; the last one comes first in both lists. -/
def recency : (asked : List CacheKey) → List CacheKey
  | [] => []
  | key :: earlier => key :: (recency earlier).erase key

theorem nodup_recency (asked : List CacheKey) : (recency asked).Nodup := by
  induction asked with
  | nil => exact List.nodup_nil
  | cons key earlier ih => exact List.nodup_cons.2 ⟨ih.not_mem_erase, ih.erase key⟩

theorem erase_take_of_mem {keys : List CacheKey} {key : CacheKey} {n : Nat} (member : key ∈ keys.take n) :
    (keys.take n).erase key = (keys.erase key).take (n - 1) := by
  -- The key is found among the first `n`, so what stands behind them does not come into the first `n - 1`.
  have erased : keys.erase key = (keys.take n).erase key ++ keys.drop n := by
    rw [← List.erase_append_left _ member, List.take_append_drop]
  have length := List.length_erase_of_mem member
  have positive := List.length_pos_of_mem member
  rw [List.length_take] at length positive
  rw [erased]
  rcases Nat.le_total n keys.length with long | short
  · exact (List.take_left' (by omega)).symm
  · rw [List.drop_of_length_le short, List.append_nil]
    exact (List.take_of_length_le (by omega)).symm

theorem take_erase_of_not_mem {keys : List CacheKey} {key : CacheKey} {n : Nat} (absent : key ∉ keys.take n) :
    (keys.erase key).take (n - 1) = keys.take (n - 1) := by
  have erased : keys.erase key = keys.take n ++ (keys.drop n).erase key := by
    rw [← List.erase_append_right _ absent, List.take_append_drop]
  rw [erased]
  rcases Nat.le_total n keys.length with long | short
  · rw [List.take_append_of_le_length, List.take_take, min_eq_left (Nat.sub_le n 1)]
    rw [List.length_take]
    omega
  · rw [List.drop_of_length_le short, List.take_of_length_le short]
    simp

theorem recency_take_of_mem {key : CacheKey} {asked : List CacheKey} {n : Nat}
    (member : key ∈ (recency asked).take n) :
    (recency (key :: asked)).take n = key :: ((recency asked).take n).erase key := by
  have positive : 0 < n := by
    have length := List.length_pos_of_mem member
    rw [List.length_take] at length
    omega
  rw [erase_take_of_mem member, recency, List.take_cons positive]

theorem recency_take_of_not_mem {key : CacheKey} {asked : List CacheKey} {n : Nat} (positive : 0 < n)
    (absent : key ∉ (recency asked).take n) :
    (recency (key :: asked)).take n = key :: (recency asked).take (n - 1) := by
  rw [recency, List.take_cons positive, take_erase_of_not_mem absent]

/-- What the client has seen of a query: the query that a request has returned last, and what the calls since have
made of it. -/
structure Seen where
  given : Query
  left : Query

/-- Caches after requests and calls of their client. The keys that were asked for since the cache was cleared come
with the last one first, and it is the query in front that can be called, on any connection. -/
inductive Used (capacity : Nat) : StatementCache → (asked : List CacheKey) → (CacheKey → Option Seen) → Prop
  | empty : Used capacity (.empty capacity) [] fun _ => none
  | given {cache cache' : StatementCache} {asked : List CacheKey} {seen : CacheKey → Option Seen} {sql : Text}
      {caps : Capabilities} {config : Config} {names names' : NameSupply} {query : Query} :
      Used capacity cache asked seen → cache.ask sql caps config names = (.ok query, cache', names') →
      Used capacity cache' (keyOf sql caps config :: asked)
        (Function.update seen (keyOf sql caps config) (some ⟨query, query⟩))
  | refused {cache cache' : StatementCache} {asked : List CacheKey} {seen : CacheKey → Option Seen} {sql : Text}
      {caps : Capabilities} {config : Config} {names names' : NameSupply} {e : Sql.Unterminated} :
      Used capacity cache asked seen → cache.ask sql caps config names = (.error e, cache', names') →
      Used capacity cache' asked seen
  | called {cache : StatementCache} {asked : List CacheKey} {seen : CacheKey → Option Seen} {key : CacheKey}
      {query query' : Query} {later : List (CacheKey × Query)} {c d : Connection} {pipelines : List (List Request)} :
      Used capacity cache asked seen → cache.entries = (key, query) :: later → Call c query pipelines d query' →
      Used capacity (cache.putBack query') asked
        (Function.update seen key ((seen key).map fun s => ⟨s.given, query'⟩))
  | cleared {cache : StatementCache} {asked : List CacheKey} {seen : CacheKey → Option Seen} :
      Used capacity cache asked seen → Used capacity cache.clear [] seen
  | taken {cache : StatementCache} {asked : List CacheKey} {seen : CacheKey → Option Seen} :
      Used capacity cache asked seen → Used capacity cache.takeEvicted.2 asked seen

/-- What becomes of a request, which would make `prepared` anew. -/
inductive Serves (cache : StatementCache) (asked : List CacheKey) (seen : CacheKey → Option Seen) (key : CacheKey)
    (names : NameSupply) (prepared : Except Sql.Unterminated (Query × NameSupply)) :
    Except Sql.Unterminated Query × StatementCache × NameSupply → Prop
  | kept {given left : Query} {cache' : StatementCache} : key ∈ cache.keys → seen key = some ⟨given, left⟩ →
      left.names = given.names → cache'.entries.Perm cache.entries → cache'.evicted = cache.evicted →
      Serves cache asked seen key names prepared (.ok left, cache', names)
  | added {fresh : Query} {cache' : StatementCache} {names' : NameSupply} : key ∉ cache.keys →
      prepared = .ok (fresh, names') → cache.size < cache.capacity →
      cache'.entries = (key, fresh) :: cache.entries → cache'.evicted = cache.evicted →
      Serves cache asked seen key names prepared (.ok fresh, cache', names')
  | replaced {fresh given gone : Query} {oldest : CacheKey} {stay : List (CacheKey × Query)} {cache' : StatementCache}
      {names' : NameSupply} : key ∉ cache.keys → prepared = .ok (fresh, names') → cache.size = cache.capacity →
      (recency asked)[cache.capacity - 1]? = some oldest → seen oldest = some ⟨given, gone⟩ →
      cache.entries = stay ++ [(oldest, gone)] → cache'.entries = (key, fresh) :: stay →
      cache'.evicted = cache.evicted ++ gone.parsedNames →
      Serves cache asked seen key names prepared (.ok fresh, cache', names')
  | refused {e : Sql.Unterminated} : key ∉ cache.keys → prepared = .error e →
      Serves cache asked seen key names prepared (.error e, cache, names)

def Known (seen : CacheKey → Option Seen) (entry : CacheKey × Query) : Prop :=
  ∃ given : Query, seen entry.1 = some ⟨given, entry.2⟩ ∧ given.IsKept ∧ given.Reaches entry.2

structure Recent (capacity : Nat) (cache : StatementCache) (asked : List CacheKey) (seen : CacheKey → Option Seen) :
    Prop where
  limit : cache.capacity = capacity
  keys : cache.keys = (recency asked).take capacity
  seen : ∀ entry ∈ cache.entries, Known seen entry

section

variable {capacity : Nat} {cache : StatementCache} {asked : List CacheKey} {seen : CacheKey → Option Seen}
  {key : CacheKey} {query : Query}

theorem Recent.size_le (recent : cache.Recent capacity asked seen) : cache.size ≤ capacity := by
  have length := congrArg List.length recent.keys
  rw [StatementCache.keys, List.length_map, List.length_take] at length
  unfold size
  omega

theorem Recent.nodup (recent : cache.Recent capacity asked seen) : cache.keys.Nodup := by
  rw [recent.keys]
  exact (nodup_recency asked).sublist (List.take_sublist _ _)

theorem Recent.empty (capacity : Nat) (seen : CacheKey → Option Seen) (evicted : List StatementName) :
    Recent capacity ⟨capacity, [], evicted⟩ [] seen :=
  ⟨rfl, List.take_nil.symm, nofun⟩

theorem keys_filter (distinct : cache.keys.Nodup) (key : CacheKey) :
    (cache.entries.filter (·.1 != key)).map (·.1) = cache.keys.erase key := by
  rw [distinct.erase_eq_filter, keys, List.filter_map]
  rfl

theorem known_front {given front : Query} {later : List (CacheKey × Query)} (kept : given.IsKept)
    (reaches : given.Reaches front) (others : ∀ entry ∈ later, entry.1 ≠ key ∧ Known seen entry) :
    ∀ entry ∈ (key, front) :: later, Known (Function.update seen key (some ⟨given, front⟩)) entry := by
  rw [List.forall_mem_cons]
  constructor
  · exact ⟨given, Function.update_self .., kept, reaches⟩
  · intro entry inside
    obtain ⟨other, known⟩ := others entry inside
    rw [Known, Function.update_of_ne other]
    exact known

theorem Recent.kept (recent : cache.Recent capacity asked seen)
    (found : cache.entries.lookup key = some query) :
    Recent capacity { cache with entries := (key, query) :: cache.entries.filter (·.1 != key) } (key :: asked)
      (Function.update seen key (some ⟨query, query⟩)) := by
  have member := mem_entries found
  have among : key ∈ (recency asked).take capacity := recent.keys ▸ List.mem_map_of_mem member
  obtain ⟨given, -, kept, reaches⟩ := recent.seen _ member
  constructor
  case limit => exact recent.limit
  case keys =>
    rw [recency_take_of_mem among, ← recent.keys, ← keys_filter recent.nodup]
    rfl
  case seen =>
    apply known_front (kept.reaches reaches) (.refl query)
    intro entry inside
    obtain ⟨inside, other⟩ := List.mem_filter.1 inside
    exact ⟨bne_iff_ne.1 other, recent.seen entry inside⟩

theorem Recent.made (recent : cache.Recent capacity asked seen) (positive : 0 < capacity)
    (missing : key ∉ cache.keys) (kept : query.IsKept) :
    Recent capacity { cache.makeRoom with entries := (key, query) :: cache.makeRoom.entries } (key :: asked)
      (Function.update seen key (some ⟨query, query⟩)) := by
  have entries : cache.makeRoom.entries = cache.entries.take (capacity - 1) := by
    rw [makeRoom_entries (recent.limit ▸ recent.size_le), recent.limit]
  constructor
  case limit => exact cache.makeRoom_capacity.trans recent.limit
  case keys =>
    rw [recency_take_of_not_mem positive (recent.keys ▸ missing), StatementCache.keys, entries, List.map_cons,
      List.map_take]
    have shorter := congrArg (List.take (capacity - 1)) recent.keys
    rw [List.take_take, min_eq_left (Nat.sub_le capacity 1)] at shorter
    rw [← shorter]
    rfl
  case seen =>
    apply known_front kept (.refl query)
    intro entry inside
    have inside := List.mem_of_mem_take (entries ▸ inside)
    exact ⟨fun same => missing (same ▸ List.mem_map_of_mem inside), recent.seen entry inside⟩

theorem Recent.called (recent : cache.Recent capacity asked seen) {query' : Query}
    {later : List (CacheKey × Query)} (first : cache.entries = (key, query) :: later)
    (reaches : query.Reaches query') :
    Recent capacity (cache.putBack query') asked
      (Function.update seen key ((seen key).map fun s => ⟨s.given, query'⟩)) := by
  have distinct := recent.nodup
  have all := recent.seen
  rw [StatementCache.keys, first, List.map_cons, List.nodup_cons] at distinct
  rw [first, List.forall_mem_cons] at all
  obtain ⟨⟨given, same, kept, before⟩, others⟩ := all
  rw [putBack, first, same]
  constructor
  case limit => exact recent.limit
  case keys =>
    rw [← recent.keys, StatementCache.keys, StatementCache.keys, first]
    rfl
  case seen =>
    apply known_front kept (before.trans reaches)
    intro entry inside
    exact ⟨fun same => distinct.1 (List.mem_map.2 ⟨entry, inside, same⟩), others entry inside⟩

end

theorem Used.recent {capacity : Nat} (positive : 0 < capacity) {cache : StatementCache} {asked : List CacheKey}
    {seen : CacheKey → Option Seen} (used : Used capacity cache asked seen) :
    cache.Recent capacity asked seen := by
  induction used with
  | empty => exact .empty capacity _ []
  | @given cache _ _ _ sql caps config names _ _ _ given ih =>
    rcases cache.ask_cases sql caps config names with
      ⟨_, found, done⟩ | ⟨_, -, -, done⟩ | ⟨_, _, missing, prepared, done⟩
    all_goals
      rw [done] at given
      cases given
    · exact ih.kept found
    · exact ih.made positive (not_mem_keys missing) (.prepare prepared)
  | @refused cache _ _ _ sql caps config names _ _ _ refused ih =>
    rcases cache.ask_cases sql caps config names with
      ⟨_, -, done⟩ | ⟨_, -, -, done⟩ | ⟨_, _, -, -, done⟩
    all_goals
      rw [done] at refused
      cases refused
    exact ih
  | called _ first call ih => exact ih.called first call.reaches
  | cleared _ ih => exact ih.limit ▸ .empty _ _ _
  | taken _ ih => exact ⟨ih.limit, ih.keys, ih.seen⟩

section

variable {capacity : Nat} {cache : StatementCache} {asked : List CacheKey} {seen : CacheKey → Option Seen}

theorem Recent.oldest (recent : cache.Recent capacity asked seen) (positive : 0 < capacity)
    (full : cache.size = capacity) :
    ∃ stay oldest given gone, (recency asked)[capacity - 1]? = some oldest ∧ seen oldest = some ⟨given, gone⟩ ∧
      cache.entries = stay ++ [(oldest, gone)] ∧ gone.IsKept := by
  have nonempty : cache.entries ≠ [] := by
    rintro nothing
    rw [size, nothing] at full
    exact positive.ne full
  obtain ⟨stay, ⟨oldest, gone⟩, entries⟩ := List.eq_nil_or_concat cache.entries |>.resolve_left nonempty
  rw [List.concat_eq_append] at entries
  obtain ⟨given, left, kept, reaches⟩ := recent.seen (oldest, gone) (by simp [entries])
  refine ⟨stay, oldest, given, gone, ?_, left, entries, kept.reaches reaches⟩
  have last : cache.keys[capacity - 1]? = some oldest := by
    rw [size, entries, List.length_append, List.length_singleton] at full
    rw [← full, StatementCache.keys, entries]
    simp
  rw [recent.keys, List.getElem?_take_of_lt (by omega)] at last
  exact last

theorem Recent.serves (recent : cache.Recent capacity asked seen) (positive : 0 < capacity) (sql : Text)
    (caps : Capabilities) (config : Config) (names : NameSupply) :
    Serves cache asked seen (keyOf sql caps config) names (Query.prepare (Text.trim sql) true caps config names)
      (cache.ask sql caps config names) := by
  rcases cache.ask_cases sql caps config names with
    ⟨left, found, done⟩ | ⟨e, missing, refused, done⟩ | ⟨fresh, names', missing, prepared, done⟩
  · have member := mem_entries found
    obtain ⟨given, same, -, reaches⟩ := recent.seen _ member
    rw [done]
    exact .kept (List.mem_map_of_mem member) same reaches.names
      (Session.entries_perm_of_nodup recent.nodup found).symm rfl
  · rw [done]
    exact .refused (not_mem_keys missing) refused
  · rw [done]
    by_cases full : cache.size = cache.capacity
    · obtain ⟨stay, oldest, given, gone, last, left, entries, kept⟩ := recent.oldest positive (full.trans recent.limit)
      rw [makeRoom, if_pos full, evictLast, entries, List.getLast?_concat, List.dropLast_concat]
      exact .replaced (not_mem_keys missing) prepared full (recent.limit ▸ last) left entries rfl
        (congrArg (cache.evicted ++ ·) (Query.close_eq_parsedNames kept))
    · rw [makeRoom, if_neg full]
      have few : cache.size ≤ cache.capacity := recent.limit ▸ recent.size_le
      exact .added (not_mem_keys missing) prepared (lt_of_le_of_ne few full) rfl rfl

end

/-- After any requests and calls, the cache keeps no more queries than it may, and these are the ones whose keys
were asked for last, in this order. -/
theorem least_recent_leaves {capacity : Nat} (positive : 0 < capacity) {cache : StatementCache}
    {asked : List CacheKey} {seen : CacheKey → Option Seen} (used : Used capacity cache asked seen) :
    cache.size ≤ capacity ∧ cache.keys = (recency asked).take capacity ∧
      ∀ (sql : Text) (caps : Capabilities) (config : Config) (names : NameSupply),
        Serves cache asked seen (keyOf sql caps config) names
          (Query.prepare (Text.trim sql) true caps config names) (cache.ask sql caps config names) := by
  have recent := used.recent positive
  exact ⟨recent.size_le, recent.keys, recent.serves positive⟩

def selectKey : CacheKey := keyOf "SELECT 1".toList .default .default

def hungUp : Connection := ⟨Wire.backendFrame 0x31 [], [], true, .default⟩

theorem least_recent_leaves_select :
    0 < 1 ∧ ∃ cache seen, Used 1 cache [selectKey] seen ∧ cache.keys = [selectKey] ∧
      Serves cache [selectKey] seen (keyOf "SELECT 2".toList .default .default) ⟨1⟩
        (Query.prepare (Text.trim "SELECT 2".toList) true .default .default ⟨1⟩)
        (cache.ask "SELECT 2".toList .default .default ⟨1⟩) ∧
      (cache.ask "SELECT 2".toList .default .default ⟨1⟩).2.1.evicted = [.numbered 0] := by
  have given : (empty 1).ask "SELECT 1".toList .default .default .fresh =
      (.ok selectQuery, ⟨1, [(selectKey, selectQuery)], []⟩, ⟨1⟩) := by cbv
  have call : Call hungUp selectQuery _ _ _ := .execute (.single [])
  have used := (Used.empty.given given).called rfl call
  obtain ⟨-, keys, serves⟩ := least_recent_leaves Nat.one_pos used
  refine ⟨Nat.one_pos, _, _, used, keys, serves _ _ _ _, ?_⟩
  cbv

end StatementCache

end ExtendedQuery
