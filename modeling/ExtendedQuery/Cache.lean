import ExtendedQuery.Execute

/-!
# Statement cache

A cache keeps the queries that were asked for most recently. A query that has to leave is closed, and the
names of its statements are kept until somebody takes them to close them at the server.
-/

namespace ExtendedQuery

structure CacheKey where
  sql : Text
  standardConformingStrings : Bool
  mergeInserts : Bool
  deriving DecidableEq, Repr

structure StatementCache where
  capacity : Nat
  /-- The query that was asked for last comes first. -/
  entries : List (CacheKey × Query)
  evicted : List StatementName
  deriving DecidableEq, Repr

namespace StatementCache

def empty (capacity : Nat) : StatementCache := ⟨capacity, [], []⟩

def ofConfig (config : Config) : StatementCache := empty config.statementCacheSize

def size (cache : StatementCache) : Nat := cache.entries.length

def evictLast (cache : StatementCache) : StatementCache :=
  match cache.entries.getLast? with
  | none => cache
  | some (_, query) =>
    { cache with
      entries := cache.entries.dropLast
      evicted := cache.evicted ++ query.close.2 }

def keyOf (sql : Text) (caps : Capabilities) (config : Config) : CacheKey :=
  ⟨Text.trim sql, caps.standardConformingStrings, config.mergeInserts⟩

/-- The query for a text without the blanks around it: the one that is kept, or else a new one, which
takes the place of another if the cache is full. The query comes first in the cache. -/
def getOrPrepare (cache : StatementCache) (sql : Text) (caps : Capabilities) (config : Config)
    (names : NameSupply) : Except Sql.Unterminated (Query × StatementCache × NameSupply) :=
  let key := keyOf sql caps config
  match cache.entries.lookup key with
  | some query =>
    .ok (query, { cache with entries := (key, query) :: cache.entries.filter (·.1 != key) }, names)
  | none => do
    let (query, names) ← Query.prepare key.sql true caps config names
    let cache := if cache.size = cache.capacity then cache.evictLast else cache
    return (query, { cache with entries := (key, query) :: cache.entries }, names)

def putBack (cache : StatementCache) (query : Query) : StatementCache :=
  match cache.entries with
  | [] => cache
  | (key, _) :: later => { cache with entries := (key, query) :: later }

def clear (cache : StatementCache) : StatementCache :=
  { cache with
    entries := []
    evicted := cache.evicted ++ cache.entries.reverse.flatMap (·.2.close.2) }

def takeEvicted (cache : StatementCache) : List StatementName × StatementCache :=
  (cache.evicted, { cache with evicted := [] })

end StatementCache

end ExtendedQuery
