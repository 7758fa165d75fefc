import ReadThrough.Cache.Recency
import ReadThrough.Cache.Slab

/-!
# Uses of a cache

Everything that can be asked of a byte-budgeted cache, on one clock, and everything that can be
seen of the cache after each request. A way of keeping a cache (`Keeping`) gives the parts of both;
the entries in a list by recency and the entries in linked slots are two of them, and what is
defined here for one is defined for the other.
-/

namespace ReadThrough

/-- One use of a cache. -/
inductive CacheUse where
  | add (key : String) (value : Value)
  | get (key : String)
  | peek (key : String)
  | contains (key : String)
  | remove (key : String)
  | evictOldest
  | clear
  /-- time passes -/
  | advance (span : Millis)

/-- What a use of a cache answers. -/
inductive CacheAnswer where
  | done
  | told (answer : Bool)
  | found (value : Option Value)
  | evicted (entry : Option (String × Value))
deriving DecidableEq

/-- What can be seen after a use of a cache: what it answered, what the listeners were told, and
the cache it left. -/
structure CacheView where
  answer : CacheAnswer
  notices : List Notice
  keys : List String
  size : Nat
  bytes : Nat
  evictions : Nat
deriving DecidableEq

/-- A way of keeping a cache: a use at an instant answers, leaves another cache and causes
departures; the rest can be read off the cache. -/
structure Keeping (C : Type) where
  use : C → Millis → CacheUse → CacheAnswer × C × List Departure
  keys : C → List String
  size : C → Nat
  bytes : C → Nat
  evictions : C → Nat

namespace CacheUse

/-- The clock after a use. -/
def clock (now : Millis) : CacheUse → Millis
  | .advance span => now + span
  | _ => now

/-- The value that some uses asked to store for a key last. -/
def latest (key : String) (uses : List CacheUse) : Option Value :=
  uses.foldl (fun last use ↦
    match use with
    | .add stored value => if stored = key then some value else last
    | _ => last) none

end CacheUse

namespace Keeping

variable {C : Type}

/-- The cache after several uses, one after the other. -/
def run (keeping : Keeping C) (cache : C) (now : Millis) : List CacheUse → C
  | [] => cache
  | use :: rest => keeping.run (keeping.use cache now use).2.1 (use.clock now) rest

/-- What a number of listeners and everyone else see of several uses. -/
def views (keeping : Keeping C) (listeners : Nat) (cache : C) (now : Millis) :
    List CacheUse → List CacheView
  | [] => []
  | use :: rest =>
      let (answer, after, departures) := keeping.use cache now use
      { answer
        notices := announce listeners departures
        keys := keeping.keys after
        size := keeping.size after
        bytes := keeping.bytes after
        evictions := keeping.evictions after } ::
        keeping.views listeners after (use.clock now) rest

/-- The departures that several uses cause, one use after the other. -/
def departures (keeping : Keeping C) (cache : C) (now : Millis) : List CacheUse → List Departure
  | [] => []
  | use :: rest =>
      (keeping.use cache now use).2.2 ++
        keeping.departures (keeping.use cache now use).2.1 (use.clock now) rest

/-- The keys that a use newly inserts within a budget: one that is stored, fits and is not held. -/
def inserts (keeping : Keeping C) (budget : Nat) (cache : C) : CacheUse → List String
  | .add key value =>
      if entrySize key value ≤ budget ∧ key ∉ keeping.keys cache then [key] else []
  | _ => []

/-- The keys that several uses newly insert, one use after the other. -/
def insertions (keeping : Keeping C) (budget : Nat) (cache : C) (now : Millis) :
    List CacheUse → List String
  | [] => []
  | use :: rest =>
      keeping.inserts budget cache use ++
        keeping.insertions budget (keeping.use cache now use).2.1 (use.clock now) rest

/-- Whether a read at an instant is answered. -/
def hits (keeping : Keeping C) (cache : C) (now : Millis) (key : String) : Bool :=
  match (keeping.use cache now (.get key)).1 with
  | .found value => value.isSome
  | _ => false

/-- Read a key, and store its value if the read is not answered. -/
def access (keeping : Keeping C) (values : String → Value) (cache : C) (now : Millis)
    (key : String) : C :=
  let read := (keeping.use cache now (.get key)).2.1
  if keeping.hits cache now key then read
  else (keeping.use read now (.add key (values key))).2.1

/-- Several accesses, each at its own instant, one after the other. -/
def accesses (keeping : Keeping C) (values : String → Value) (cache : C)
    (keys : List (Millis × String)) : C :=
  keys.foldl (fun cache (now, key) ↦ keeping.access values cache now key) cache

end Keeping

/-- The entries of a cache in a list by recency. -/
def Recency.keeping : Keeping Recency where
  use cache now
    | .add key value =>
        let step := cache.add key value
        (.told step.result, step.cache, step.departures)
    | .get key =>
        let step := cache.get key now
        (.found step.result, step.cache, step.departures)
    | .peek key => (.found (cache.peek key now), cache, [])
    | .contains key => (.told (cache.contains key now), cache, [])
    | .remove key =>
        let step := cache.remove key
        (.found step.result, step.cache, step.departures)
    | .evictOldest =>
        let step := cache.evictOldest
        (.evicted (step.result.map fun e ↦ (e.key, e.value)), step.cache, step.departures)
    | .clear => (.done, cache.clear, [])
    | .advance _ => (.done, cache, [])
  keys := Recency.keys
  size := Recency.size
  bytes := Recency.bytes
  evictions := Recency.evictions

/-- The entries of a cache in linked slots. -/
def Slab.keeping : Keeping Slab where
  use slab now
    | .add key value =>
        let step := slab.add key value
        (.told step.result, step.slab, step.departures)
    | .get key =>
        let step := slab.get key now
        (.found step.result, step.slab, step.departures)
    | .peek key => (.found (slab.peek key now), slab, [])
    | .contains key => (.told (slab.contains key now), slab, [])
    | .remove key =>
        let step := slab.remove key
        (.found step.result, step.slab, step.departures)
    | .evictOldest =>
        let step := slab.evictOldest
        (.evicted step.result, step.slab, step.departures)
    | .clear => (.done, slab.clear, [])
    | .advance _ => (.done, slab, [])
  keys := Slab.keys
  size := Slab.size
  bytes := Slab.bytes
  evictions := Slab.evictions

/-- The largest number of entries that a use holds at once, an entry that was just written and not
yet made room for included. -/
def Recency.crest (cache : Recency) : CacheUse → Nat
  | .add key value =>
      if cache.budget < entrySize key value then cache.size
      else (cache.write ⟨key, value⟩).size
  | _ => cache.size

/-- The largest number of entries held at once since the cache was last cleared, given what it was
before a use. -/
def Recency.mark (cache : Recency) (high : Nat) : CacheUse → Nat
  | .clear => 0
  | use => max high (cache.crest use)

/-- The largest number of entries held at once since the cache was last cleared, given what it was
before some uses. -/
def Recency.highWater (cache : Recency) (now : Millis) (high : Nat) : List CacheUse → Nat
  | [] => high
  | use :: rest =>
      let after := (Recency.keeping.use cache now use).2.1
      after.highWater (use.clock now) (cache.mark high use) rest

end ReadThrough
