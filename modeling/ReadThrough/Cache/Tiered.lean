import ReadThrough.Cache.Policy
import ReadThrough.Cache.Recency

/-!
# The two-tier cache

The main tier holds what this process loaded itself, the hot tier copies of what peers own. A
key is held by at most one of them: storing it in one takes it out of the other. After every
store the pair is balanced, so that together they stay within the shared budget. With a budget of
zero nothing is ever stored or found.
-/

namespace ReadThrough

/-- One of the two tiers. -/
inductive Tier where
  | main
  | hot
deriving DecidableEq, Repr

/-- The word for a tier. -/
def Tier.word : Tier → String
  | .main => "main"
  | .hot => "hot"

/-- How often a tier was read, and how often it answered. -/
structure TierReads where
  gets : Nat
  hits : Nat
deriving DecidableEq, Repr

/-- Count a read that was answered. -/
def TierReads.hit (reads : TierReads) : TierReads :=
  ⟨reads.gets + 1, reads.hits + 1⟩

/-- Count a read that was not answered. -/
def TierReads.miss (reads : TierReads) : TierReads :=
  ⟨reads.gets + 1, reads.hits⟩

/-- A point-in-time view of one tier. -/
structure TierStats where
  bytes : Nat
  maxBytes : Nat
  items : Nat
  gets : Nat
  hits : Nat
  evictions : Nat
deriving DecidableEq, Repr

/-- Two caches under one policy, with the reads of each. -/
structure Tiered where
  policy : TierPolicy
  main : Recency
  hot : Recency
  mainReads : TierReads
  hotReads : TierReads
deriving DecidableEq

namespace Tiered

/-- What an operation answers, the cache it leaves, and the departures it causes. -/
structure Step (α : Type) where
  result : α
  cache : Tiered
  departures : List Departure

/-- A pair that holds nothing. -/
def empty (policy : TierPolicy) : Tiered :=
  ⟨policy, .empty policy.mainBytes, .empty policy.hotBytes, ⟨0, 0⟩, ⟨0, 0⟩⟩

/-- Read a key, main tier first. Each tier that is asked counts the read. -/
def get (cache : Tiered) (key : String) (now : Millis) : Step (Option (Value × Tier)) :=
  if cache.policy.cacheBytes = 0 then ⟨none, cache, []⟩
  else
    let inMain := cache.main.get key now
    match inMain.result with
    | some value =>
        ⟨some (value, .main),
          { cache with main := inMain.cache, mainReads := cache.mainReads.hit },
          inMain.departures⟩
    | none =>
        let inHot := cache.hot.get key now
        let answered := inHot.result.isSome
        ⟨inHot.result.map (·, .hot),
          { cache with
            main := inMain.cache
            hot := inHot.cache
            mainReads := cache.mainReads.miss
            hotReads := if answered then cache.hotReads.hit else cache.hotReads.miss },
          inMain.departures ++ inHot.departures⟩

/-- Read a key without counting or touching anything. -/
def peek (cache : Tiered) (key : String) (now : Millis) : Option (Value × Tier) :=
  if cache.policy.cacheBytes = 0 then none
  else
    match cache.main.peek key now with
    | some value => some (value, .main)
    | none => (cache.hot.peek key now).map (·, .hot)

/-- The tier that holds an unexpired entry for a key. -/
def tierOf (cache : Tiered) (key : String) (now : Millis) : Option Tier :=
  if cache.main.contains key now then some .main
  else if cache.hot.contains key now then some .hot
  else none

/-- Evict one entry from the tier that has to give way. Nothing changes when it is empty. -/
def giveWay (cache : Tiered) : Step (Option Entry) :=
  if cache.policy.hotIsOverShare cache.main.bytes cache.hot.bytes then
    let step := cache.hot.evictOldest
    ⟨step.result, { cache with hot := step.cache }, step.departures⟩
  else
    let step := cache.main.evictOldest
    ⟨step.result, { cache with main := step.cache }, step.departures⟩

/-- The number of entries in both tiers. -/
def size (cache : Tiered) : Nat :=
  cache.main.size + cache.hot.size

/-- An entry that gives way is one entry less. -/
theorem size_giveWay (cache : Tiered) (h : cache.giveWay.result.isSome) :
    cache.giveWay.cache.size < cache.size := by
  unfold giveWay at h ⊢
  split
  · next crowded =>
    simp only [crowded, if_true] at h ⊢
    cases entries : cache.hot.entries with
    | nil => simp [Recency.evictOldest, entries] at h
    | cons entry rest => simp [Recency.evictOldest, entries, size, Recency.size]
  · next crowded =>
    simp only [crowded] at h ⊢
    cases entries : cache.main.entries with
    | nil => simp [Recency.evictOldest, entries] at h
    | cons entry rest => simp [Recency.evictOldest, entries, size, Recency.size]

/-- Evict from either tier until the pair is within the shared budget. -/
def balance (cache : Tiered) : Step Unit :=
  if cache.main.bytes + cache.hot.bytes ≤ cache.policy.cacheBytes then ⟨(), cache, []⟩
  else
    let victim := cache.giveWay
    if _ : victim.result.isSome then
      let rest := victim.cache.balance
      ⟨(), rest.cache, victim.departures ++ rest.departures⟩
    else ⟨(), cache, []⟩
termination_by cache.size
decreasing_by exact size_giveWay cache (by assumption)

/-- Store a value in a tier and take its key out of the other one. The answer tells whether the
value fits the allotment of the tier; the pair may be over the shared budget. -/
def place (cache : Tiered) (key : String) (value : Value) (tier : Tier) : Step Bool :=
  match tier with
  | .main =>
      let moved := cache.hot.remove key
      let stored := cache.main.add key value
      ⟨stored.result, { cache with main := stored.cache, hot := moved.cache },
        moved.departures ++ stored.departures⟩
  | .hot =>
      let moved := cache.main.remove key
      let stored := cache.hot.add key value
      ⟨stored.result, { cache with main := moved.cache, hot := stored.cache },
        moved.departures ++ stored.departures⟩

/-- Store a value in a tier and balance the pair. The answer tells whether the value fits the
allotment of the tier. -/
def add (cache : Tiered) (key : String) (value : Value) (tier : Tier) : Step Bool :=
  if cache.policy.cacheBytes = 0 then ⟨false, cache, []⟩
  else
    let placed := cache.place key value tier
    let balanced := placed.cache.balance
    ⟨placed.result, balanced.cache, placed.departures ++ balanced.departures⟩

/-- Take a key out of both tiers. The answer tells whether either held it, expired or not. -/
def remove (cache : Tiered) (key : String) : Step Bool :=
  let fromMain := cache.main.remove key
  let fromHot := cache.hot.remove key
  ⟨fromMain.result.isSome || fromHot.result.isSome,
    { cache with main := fromMain.cache, hot := fromHot.cache },
    fromMain.departures ++ fromHot.departures⟩

/-- Forget every entry of both tiers without telling anyone. -/
def clear (cache : Tiered) : Tiered :=
  { cache with main := cache.main.clear, hot := cache.hot.clear }

/-- One use of a two-tier cache, at an instant where the clock matters. -/
inductive Operation where
  | add (key : String) (value : Value) (tier : Tier)
  | get (key : String) (now : Millis)
  | peek (key : String) (now : Millis)
  | remove (key : String)
  | clear

/-- The cache that an operation leaves. -/
def apply (cache : Tiered) : Operation → Tiered
  | .add key value tier => (cache.add key value tier).cache
  | .get key now => (cache.get key now).cache
  | .peek _ _ => cache
  | .remove key => (cache.remove key).cache
  | .clear => cache.clear

/-- A view of one tier. -/
def stats (cache : Tiered) (tier : Tier) : TierStats :=
  let (tierCache, reads) :=
    match tier with
    | .main => (cache.main, cache.mainReads)
    | .hot => (cache.hot, cache.hotReads)
  ⟨tierCache.bytes, tierCache.budget, tierCache.size, reads.gets, reads.hits,
    tierCache.evictions⟩

/-- The bytes in use by both tiers. -/
def totalBytes (cache : Tiered) : Nat :=
  cache.main.bytes + cache.hot.bytes

/-- The diagnostic text of a two-tier cache. -/
def describe (cache : Tiered) : String :=
  s!"TieredCache \x7b policy: {cache.policy.describe} \x7d"

end Tiered

end ReadThrough
