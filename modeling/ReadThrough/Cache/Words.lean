import ReadThrough.Cache.Slab
import ReadThrough.Cache.Tiered

/-!
# Two tiers that count their bytes in words

The bytes of a cache are kept in words of 64 bits. What a sum that is beyond a word comes to, or a
difference below zero, depends on how a program was built: it ends the program, or it wraps around.
The operations on two tiers in linked slots are written here over either way of counting. All other
counters go up by one at a time, and are left as they are.
-/

namespace ReadThrough

/-- A way to add and to subtract bytes. A program that comes to no result goes no further. -/
structure Arithmetic where
  sum : Nat → Nat → Option Nat
  difference : Nat → Nat → Option Nat

namespace Arithmetic

/-- Numbers of any size. Below zero there is no number of bytes. -/
def unbounded : Arithmetic where
  sum m n := some (m + n)
  difference m n := if n ≤ m then some (m - n) else none

/-- Words that are checked. -/
def checked : Arithmetic where
  sum m n := if m + n < UInt64.size then some (m + n) else none
  difference m n := if n ≤ m then some (m - n) else none

/-- Words that wrap around. -/
def wrapping : Arithmetic where
  sum m n := some (UInt64.ofNat m + UInt64.ofNat n).toNat
  difference m n := some (UInt64.ofNat m - UInt64.ofNat n).toNat

/-- The bytes that an entry is charged for. -/
def entrySize (arithmetic : Arithmetic) (key : String) (value : Value) : Option Nat := do
  let content ← arithmetic.sum key.utf8ByteSize value.data.size
  arithmetic.sum content entryOverhead

end Arithmetic

namespace Slab

variable (arithmetic : Arithmetic)

/-- Take the entry of a slot out for a reason and free the slot. -/
def departBy (slab : Slab) (slot : Nat) (reason : Reason) : Option (Step (Option Slot)) :=
  match slab.slots[slot]? with
  | none => some ⟨none, slab, []⟩
  | some s => do
      let bytes ← arithmetic.difference slab.bytes s.size
      let gone := slab.depart slot reason
      pure ⟨gone.result, { gone.slab with bytes }, gone.departures⟩

/-- Read a key and make it the most recently used. -/
def getBy (slab : Slab) (key : String) (now : Millis) : Option (Step (Option Value)) :=
  match slab.find? key with
  | none => some ⟨none, slab, []⟩
  | some (number, slot) =>
      if slot.value.expired now then do
        let gone ← slab.departBy arithmetic number .expired
        pure ⟨none, gone.slab, gone.departures⟩
      else some ⟨some slot.value, (slab.unlink number).linkNewest number, []⟩

/-- Take a key out, expired or not. -/
def removeBy (slab : Slab) (key : String) : Option (Step (Option Value)) :=
  match slab.find? key with
  | none => some ⟨none, slab, []⟩
  | some (number, slot) => do
      let gone ← slab.departBy arithmetic number .removed
      pure ⟨some slot.value, gone.slab, gone.departures⟩

/-- Evict the least recently used entry. -/
def evictOldestBy (slab : Slab) : Option (Step (Option (String × Value))) :=
  match slab.oldest with
  | none => some ⟨none, slab, []⟩
  | some number => do
      let gone ← slab.departBy arithmetic number .evicted
      pure ⟨gone.result.map fun s ↦ (s.key, s.value), gone.slab, gone.departures⟩

/-- Evict at most `limit` entries from the old end, and stop once the budget holds. -/
def trimBy : Nat → Slab → Option (Step Unit)
  | 0, slab => some ⟨(), slab, []⟩
  | limit + 1, slab =>
      if slab.bytes ≤ slab.budget then some ⟨(), slab, []⟩
      else do
        let victim ← slab.evictOldestBy arithmetic
        if victim.result.isSome then
          let rest ← trimBy limit victim.slab
          pure ⟨(), rest.slab, victim.departures ++ rest.departures⟩
        else pure ⟨(), slab, []⟩

/-- Write an entry of a size that fits as the most recently used one. The bytes of a replaced entry
are taken off first. -/
def writeBy (slab : Slab) (key : String) (value : Value) (size : Nat) : Option Slab :=
  match slab.find? key with
  | some (number, old) => do
      let others ← arithmetic.difference slab.bytes old.size
      let bytes ← arithmetic.sum others size
      let replaced : Slab :=
        { slab with bytes, slots := slab.slots.modify number fun s ↦ { s with size, value } }
      pure ((replaced.unlink number).linkNewest number)
  | none => do
      let (number, grown) := slab.allocate { key, value, size, older := none, newer := none }
      let linked := grown.linkNewest number
      let bytes ← arithmetic.sum linked.bytes size
      pure { linked with index := linked.index.insert key number, bytes }

/-- Store a value. The answer tells whether the entry fits the budget. -/
def addBy (slab : Slab) (key : String) (value : Value) : Option (Step Bool) := do
  let size ← arithmetic.entrySize key value
  if slab.budget < size then
    let gone ← slab.removeBy arithmetic key
    pure ⟨false, gone.slab, gone.departures⟩
  else
    let written ← slab.writeBy arithmetic key value size
    let trimmed ← trimBy arithmetic written.index.size written
    pure ⟨true, trimmed.slab, trimmed.departures⟩

end Slab

/-- Two tiers in linked slots under one policy, with the reads of each. -/
structure SlabPair where
  policy : TierPolicy
  main : Slab
  hot : Slab
  mainReads : TierReads
  hotReads : TierReads

/-- One use of a two-tier cache, at an instant where the clock matters. -/
inductive TieredUse where
  | add (key : String) (value : Value) (tier : Tier)
  | get (key : String) (now : Millis)
  | peek (key : String) (now : Millis)
  | tierOf (key : String) (now : Millis)
  | remove (key : String)
  | clear
  | stats (tier : Tier)
  | totalBytes

/-- What a use of a two-tier cache answers. -/
inductive TieredAnswer where
  | done
  | told (answer : Bool)
  | found (value : Option (Value × Tier))
  | held (tier : Option Tier)
  | counted (stats : TierStats)
  | used (bytes : Nat)
deriving DecidableEq

/-- What a use answers, the cache it leaves, and the departures it causes. -/
def Tiered.use (cache : Tiered) : TieredUse → Step TieredAnswer
  | .add key value tier =>
      let step := cache.add key value tier
      ⟨.told step.result, step.cache, step.departures⟩
  | .get key now =>
      let step := cache.get key now
      ⟨.found step.result, step.cache, step.departures⟩
  | .peek key now => ⟨.found (cache.peek key now), cache, []⟩
  | .tierOf key now => ⟨.held (cache.tierOf key now), cache, []⟩
  | .remove key =>
      let step := cache.remove key
      ⟨.told step.result, step.cache, step.departures⟩
  | .clear => ⟨.done, cache.clear, []⟩
  | .stats tier => ⟨.counted (cache.stats tier), cache, []⟩
  | .totalBytes => ⟨.used cache.totalBytes, cache, []⟩

/-- What is seen of several uses, one after the other: the answers and the departures. -/
def Tiered.views (cache : Tiered) : List TieredUse → List (TieredAnswer × List Departure)
  | [] => []
  | use :: rest =>
      let step := cache.use use
      (step.result, step.departures) :: step.cache.views rest

namespace SlabPair

/-- What an operation answers, the pair it leaves, and the departures it causes. -/
structure Step (α : Type) where
  result : α
  pair : SlabPair
  departures : List Departure

/-- A pair that holds nothing. -/
def empty (policy : TierPolicy) : SlabPair :=
  ⟨policy, .empty policy.mainBytes, .empty policy.hotBytes, ⟨0, 0⟩, ⟨0, 0⟩⟩

/-- Read a key without counting or touching anything. -/
def peek (pair : SlabPair) (key : String) (now : Millis) : Option (Value × Tier) :=
  if pair.policy.cacheBytes = 0 then none
  else
    match pair.main.peek key now with
    | some value => some (value, .main)
    | none => (pair.hot.peek key now).map (·, .hot)

/-- The tier that holds an unexpired entry for a key. -/
def tierOf (pair : SlabPair) (key : String) (now : Millis) : Option Tier :=
  if pair.main.contains key now then some .main
  else if pair.hot.contains key now then some .hot
  else none

/-- Forget every entry of both tiers without telling anyone. -/
def clear (pair : SlabPair) : SlabPair :=
  { pair with main := pair.main.clear, hot := pair.hot.clear }

/-- A view of one tier. -/
def stats (pair : SlabPair) (tier : Tier) : TierStats :=
  let (slab, reads) :=
    match tier with
    | .main => (pair.main, pair.mainReads)
    | .hot => (pair.hot, pair.hotReads)
  ⟨slab.bytes, slab.budget, slab.size, reads.gets, reads.hits, slab.evictions⟩

variable (arithmetic : Arithmetic)

/-- Read a key, main tier first. Each tier that is asked counts the read. -/
def getBy (pair : SlabPair) (key : String) (now : Millis) :
    Option (Step (Option (Value × Tier))) :=
  if pair.policy.cacheBytes = 0 then some ⟨none, pair, []⟩
  else do
    let inMain ← pair.main.getBy arithmetic key now
    match inMain.result with
    | some value =>
        pure ⟨some (value, .main),
          { pair with main := inMain.slab, mainReads := pair.mainReads.hit }, inMain.departures⟩
    | none =>
        let inHot ← pair.hot.getBy arithmetic key now
        let answered := inHot.result.isSome
        pure ⟨inHot.result.map (·, .hot),
          { pair with
            main := inMain.slab
            hot := inHot.slab
            mainReads := pair.mainReads.miss
            hotReads := if answered then pair.hotReads.hit else pair.hotReads.miss },
          inMain.departures ++ inHot.departures⟩

/-- The bytes in use by both tiers. -/
def totalBytesBy (pair : SlabPair) : Option Nat :=
  arithmetic.sum pair.main.bytes pair.hot.bytes

/-- Evict one entry from the tier that has to give way. The answer tells whether there was one. -/
def giveWayBy (pair : SlabPair) : Option (Step Bool) :=
  if pair.policy.hotIsOverShare pair.main.bytes pair.hot.bytes then do
    let step ← pair.hot.evictOldestBy arithmetic
    pure ⟨step.result.isSome, { pair with hot := step.slab }, step.departures⟩
  else do
    let step ← pair.main.evictOldestBy arithmetic
    pure ⟨step.result.isSome, { pair with main := step.slab }, step.departures⟩

/-- Evict from either tier, at most `limit` times, until the pair is within the shared budget. -/
def balanceBy : Nat → SlabPair → Option (Step Unit)
  | 0, pair => some ⟨(), pair, []⟩
  | limit + 1, pair => do
      let total ← pair.totalBytesBy arithmetic
      if total ≤ pair.policy.cacheBytes then pure ⟨(), pair, []⟩
      else
        let victim ← pair.giveWayBy arithmetic
        if victim.result then
          let rest ← balanceBy limit victim.pair
          pure ⟨(), rest.pair, victim.departures ++ rest.departures⟩
        else pure ⟨(), pair, []⟩

/-- Store a value in a tier and take its key out of the other one. -/
def placeBy (pair : SlabPair) (key : String) (value : Value) (tier : Tier) : Option (Step Bool) :=
  match tier with
  | .main => do
      let moved ← pair.hot.removeBy arithmetic key
      let stored ← pair.main.addBy arithmetic key value
      pure ⟨stored.result, { pair with main := stored.slab, hot := moved.slab },
        moved.departures ++ stored.departures⟩
  | .hot => do
      let moved ← pair.main.removeBy arithmetic key
      let stored ← pair.hot.addBy arithmetic key value
      pure ⟨stored.result, { pair with main := moved.slab, hot := stored.slab },
        moved.departures ++ stored.departures⟩

/-- Store a value in a tier and balance the pair. There is a last look at the bytes once every entry
has given way. -/
def addBy (pair : SlabPair) (key : String) (value : Value) (tier : Tier) : Option (Step Bool) :=
  if pair.policy.cacheBytes = 0 then some ⟨false, pair, []⟩
  else do
    let placed ← pair.placeBy arithmetic key value tier
    let balanced ←
      balanceBy arithmetic (placed.pair.main.size + placed.pair.hot.size + 1) placed.pair
    pure ⟨placed.result, balanced.pair, placed.departures ++ balanced.departures⟩

/-- Take a key out of both tiers. The answer tells whether either held it, expired or not. -/
def removeBy (pair : SlabPair) (key : String) : Option (Step Bool) := do
  let fromMain ← pair.main.removeBy arithmetic key
  let fromHot ← pair.hot.removeBy arithmetic key
  pure ⟨fromMain.result.isSome || fromHot.result.isSome,
    { pair with main := fromMain.slab, hot := fromHot.slab },
    fromMain.departures ++ fromHot.departures⟩

/-- What a use answers, the pair it leaves, and the departures it causes. -/
def useBy (pair : SlabPair) : TieredUse → Option (Step TieredAnswer)
  | .add key value tier => do
      let step ← pair.addBy arithmetic key value tier
      pure ⟨.told step.result, step.pair, step.departures⟩
  | .get key now => do
      let step ← pair.getBy arithmetic key now
      pure ⟨.found step.result, step.pair, step.departures⟩
  | .peek key now => some ⟨.found (pair.peek key now), pair, []⟩
  | .tierOf key now => some ⟨.held (pair.tierOf key now), pair, []⟩
  | .remove key => do
      let step ← pair.removeBy arithmetic key
      pure ⟨.told step.result, step.pair, step.departures⟩
  | .clear => some ⟨.done, pair.clear, []⟩
  | .stats tier => some ⟨.counted (pair.stats tier), pair, []⟩
  | .totalBytes => do
      let bytes ← pair.totalBytesBy arithmetic
      pure ⟨.used bytes, pair, []⟩

/-- What is seen of several uses, one after the other: the answers and the departures. -/
def viewsBy (pair : SlabPair) : List TieredUse → Option (List (TieredAnswer × List Departure))
  | [] => some []
  | use :: rest => do
      let step ← pair.useBy arithmetic use
      let views ← step.pair.viewsBy rest
      pure ((step.result, step.departures) :: views)

end SlabPair

end ReadThrough
