import ReadThrough.Cache.Departure

/-!
# A byte-budgeted cache ordered by recency

Entries are kept from least to most recently used. Reading an entry makes it the most recent one;
storing an entry does too, and then takes entries from the old end until the budget holds again.
An entry that is larger than the whole budget is refused, and no older value of its key survives.
Expired entries stay until a read finds them or room is needed.
-/

namespace ReadThrough

/-- A key with its value. -/
structure Entry where
  key : String
  value : Value
deriving DecidableEq

/-- The bytes that an entry is charged for. -/
def Entry.size (entry : Entry) : Nat :=
  entrySize entry.key entry.value

/-- The record of an entry that leaves. -/
def Entry.departing (entry : Entry) (reason : Reason) : Departure :=
  ⟨entry.key, entry.value, reason⟩

/-- A cache with its budget, its entries from least to most recently used, a running count of the
bytes in use, and the number of entries evicted since it was made. -/
structure Recency where
  budget : Nat
  entries : List Entry
  bytes : Nat
  evictions : Nat
deriving DecidableEq

namespace Recency

/-- What an operation answers, the cache it leaves, and the departures it causes. -/
structure Step (α : Type) where
  result : α
  cache : Recency
  departures : List Departure

/-- A cache that holds nothing. -/
def empty (budget : Nat) : Recency :=
  ⟨budget, [], 0, 0⟩

/-- The entry of a key, expired or not. -/
def find? (cache : Recency) (key : String) : Option Entry :=
  cache.entries.find? fun e ↦ e.key = key

/-- The entries other than that of a key. -/
def others (cache : Recency) (key : String) : List Entry :=
  cache.entries.filter fun e ↦ e.key ≠ key

/-- Take an entry out for a reason. Only evictions are counted. -/
def depart (cache : Recency) (entry : Entry) (reason : Reason) : Recency :=
  { cache with
    entries := cache.others entry.key
    bytes := cache.bytes - entry.size
    evictions := if reason = .evicted then cache.evictions + 1 else cache.evictions }

/-- Read a key and make it the most recently used. An expired entry leaves and reads as absent. -/
def get (cache : Recency) (key : String) (now : Millis) : Step (Option Value) :=
  match cache.find? key with
  | none => ⟨none, cache, []⟩
  | some entry =>
      if entry.value.expired now then
        ⟨none, cache.depart entry .expired, [entry.departing .expired]⟩
      else
        ⟨some entry.value, { cache with entries := cache.others key ++ [entry] }, []⟩

/-- Read a key without touching anything. An expired entry reads as absent. -/
def peek (cache : Recency) (key : String) (now : Millis) : Option Value :=
  match cache.find? key with
  | none => none
  | some entry => if entry.value.expired now then none else some entry.value

/-- Whether a key reads as present. -/
def contains (cache : Recency) (key : String) (now : Millis) : Bool :=
  (cache.peek key now).isSome

/-- Take a key out, expired or not. -/
def remove (cache : Recency) (key : String) : Step (Option Value) :=
  match cache.find? key with
  | none => ⟨none, cache, []⟩
  | some entry =>
      ⟨some entry.value, cache.depart entry .removed, [entry.departing .removed]⟩

/-- Evict the least recently used entry. -/
def evictOldest (cache : Recency) : Step (Option Entry) :=
  match cache.entries with
  | [] => ⟨none, cache, []⟩
  | entry :: rest =>
      ⟨some entry,
        { cache with
          entries := rest
          bytes := cache.bytes - entry.size
          evictions := cache.evictions + 1 },
        [entry.departing .evicted]⟩

/-- How many entries have to leave from the old end until the bytes that are left fit a budget. -/
def overflow (budget : Nat) : List Entry → Nat → Nat
  | [], _ => 0
  | entry :: rest, bytes =>
      if bytes ≤ budget then 0 else overflow budget rest (bytes - entry.size) + 1

/-- Evict from the old end until the budget holds. -/
def trim (cache : Recency) : Step Unit :=
  let count := overflow cache.budget cache.entries cache.bytes
  let victims := cache.entries.take count
  ⟨(),
    { cache with
      entries := cache.entries.drop count
      bytes := victims.foldl (fun bytes entry ↦ bytes - entry.size) cache.bytes
      evictions := cache.evictions + victims.length },
    victims.map fun entry ↦ entry.departing .evicted⟩

/-- The cache just after an entry that fits was written: it is the most recently used one, a
replaced value leaves silently, and the budget may be exceeded. -/
def write (cache : Recency) (entry : Entry) : Recency :=
  { cache with
    entries := cache.others entry.key ++ [entry]
    bytes :=
      match cache.find? entry.key with
      | none => cache.bytes + entry.size
      | some old => cache.bytes - old.size + entry.size }

/-- Store a value. The answer tells whether the entry fits the budget. -/
def add (cache : Recency) (key : String) (value : Value) : Step Bool :=
  if cache.budget < entrySize key value then
    let step := cache.remove key
    ⟨false, step.cache, step.departures⟩
  else
    let step := (cache.write ⟨key, value⟩).trim
    ⟨true, step.cache, step.departures⟩

/-- Forget every entry without telling anyone. The eviction count stays. -/
def clear (cache : Recency) : Recency :=
  { cache with entries := [], bytes := 0 }

/-- The keys from least to most recently used. -/
def keys (cache : Recency) : List String :=
  cache.entries.map Entry.key

/-- The number of entries, expired ones included. -/
def size (cache : Recency) : Nat :=
  cache.entries.length

end Recency

end ReadThrough
