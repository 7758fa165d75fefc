import Std.Data.HashMap
import ReadThrough.Cache.Departure

/-!
# The same cache in constant time per operation

Entries live in numbered slots that are threaded onto a doubly linked list from the least to the
most recently used, with an index from keys to slots and a stack of free slots. Every operation
answers, and announces, what the cache ordered by recency does; only the cost differs, as no
operation but listing the keys walks the list.
-/

namespace ReadThrough

/-- A slot: an entry with its charge and its neighbours on the list. -/
structure Slot where
  key : String
  value : Value
  size : Nat
  older : Option Nat
  newer : Option Nat

/-- Numbered slots, the index of the keys, the free slots, and both ends of the list. -/
structure Slab where
  budget : Nat
  bytes : Nat
  index : Std.HashMap String Nat
  slots : Array Slot
  free : List Nat
  oldest : Option Nat
  newest : Option Nat
  evictions : Nat

namespace Slab

/-- What an operation answers, the slab it leaves, and the departures it causes. -/
structure Step (α : Type) where
  result : α
  slab : Slab
  departures : List Departure

/-- A slab that holds nothing. -/
def empty (budget : Nat) : Slab :=
  { budget, bytes := 0, index := ∅, slots := #[], free := [], oldest := none, newest := none,
    evictions := 0 }

/-- What a slot holds once its entry has left. -/
def vacant : Slot :=
  { key := "", value := .lasting .empty, size := 0, older := none, newer := none }

/-- Change one slot. -/
def modifySlot (slab : Slab) (slot : Nat) (change : Slot → Slot) : Slab :=
  { slab with slots := slab.slots.modify slot change }

/-- The slot that comes before a link, or the old end of the list, points on to `next`. -/
def linkNewer (slab : Slab) (before : Option Nat) (next : Option Nat) : Slab :=
  match before with
  | some slot => slab.modifySlot slot fun s ↦ { s with newer := next }
  | none => { slab with oldest := next }

/-- The slot that comes after a link, or the new end of the list, points back to `previous`. -/
def linkOlder (slab : Slab) (after : Option Nat) (previous : Option Nat) : Slab :=
  match after with
  | some slot => slab.modifySlot slot fun s ↦ { s with older := previous }
  | none => { slab with newest := previous }

/-- Take a slot off the list and join its neighbours. -/
def unlink (slab : Slab) (slot : Nat) : Slab :=
  match slab.slots[slot]? with
  | none => slab
  | some s =>
      ((slab.linkNewer s.older s.newer).linkOlder s.newer s.older).modifySlot slot
        fun s ↦ { s with older := none, newer := none }

/-- Put a slot at the new end of the list. -/
def linkNewest (slab : Slab) (slot : Nat) : Slab :=
  let last := slab.newest
  let linked := slab.modifySlot slot fun s ↦ { s with older := last, newer := none }
  { linked.linkNewer last (some slot) with newest := some slot }

/-- Take the entry of a slot out for a reason and free the slot. -/
def depart (slab : Slab) (slot : Nat) (reason : Reason) : Step (Option Slot) :=
  match slab.slots[slot]? with
  | none => ⟨none, slab, []⟩
  | some s =>
      let unlinked := slab.unlink slot
      let freed : Slab :=
        { unlinked with
          bytes := slab.bytes - s.size
          index := slab.index.erase s.key
          slots := unlinked.slots.modify slot fun _ ↦ vacant
          free := slot :: slab.free
          evictions := if reason = .evicted then slab.evictions + 1 else slab.evictions }
      ⟨some s, freed, [⟨s.key, s.value, reason⟩]⟩

/-- Put an entry into a free slot, or into a new one where none is free. -/
def allocate (slab : Slab) (slot : Slot) : Nat × Slab :=
  match slab.free with
  | number :: rest =>
      (number, { slab with free := rest, slots := slab.slots.modify number fun _ ↦ slot })
  | [] => (slab.slots.size, { slab with slots := slab.slots.push slot })

/-- The slot of a key, with its number. -/
def find? (slab : Slab) (key : String) : Option (Nat × Slot) := do
  let number ← slab.index[key]?
  let slot ← slab.slots[number]?
  pure (number, slot)

/-- Read a key and make it the most recently used. An expired entry leaves and reads as absent. -/
def get (slab : Slab) (key : String) (now : Millis) : Step (Option Value) :=
  match slab.find? key with
  | none => ⟨none, slab, []⟩
  | some (number, slot) =>
      if slot.value.expired now then
        let gone := slab.depart number .expired
        ⟨none, gone.slab, gone.departures⟩
      else
        ⟨some slot.value, (slab.unlink number).linkNewest number, []⟩

/-- Read a key without touching anything. An expired entry reads as absent. -/
def peek (slab : Slab) (key : String) (now : Millis) : Option Value :=
  match slab.find? key with
  | none => none
  | some (_, slot) => if slot.value.expired now then none else some slot.value

/-- Whether a key reads as present. -/
def contains (slab : Slab) (key : String) (now : Millis) : Bool :=
  (slab.peek key now).isSome

/-- Take a key out, expired or not. -/
def remove (slab : Slab) (key : String) : Step (Option Value) :=
  match slab.find? key with
  | none => ⟨none, slab, []⟩
  | some (number, slot) =>
      let gone := slab.depart number .removed
      ⟨some slot.value, gone.slab, gone.departures⟩

/-- Evict the least recently used entry. -/
def evictOldest (slab : Slab) : Step (Option (String × Value)) :=
  match slab.oldest with
  | none => ⟨none, slab, []⟩
  | some number =>
      let gone := slab.depart number .evicted
      ⟨gone.result.map fun s ↦ (s.key, s.value), gone.slab, gone.departures⟩

/-- Evict at most `limit` entries from the old end, and stop once the budget holds. -/
def trim : Nat → Slab → Step Unit
  | 0, slab => ⟨(), slab, []⟩
  | limit + 1, slab =>
      if slab.bytes ≤ slab.budget then ⟨(), slab, []⟩
      else
        let victim := slab.evictOldest
        if victim.result.isSome then
          let rest := trim limit victim.slab
          ⟨(), rest.slab, victim.departures ++ rest.departures⟩
        else ⟨(), slab, []⟩

/-- Write an entry that fits as the most recently used one. -/
def write (slab : Slab) (key : String) (value : Value) : Slab :=
  let size := entrySize key value
  match slab.find? key with
  | some (number, old) =>
      let replaced : Slab :=
        { slab with
          bytes := slab.bytes - old.size + size
          slots := slab.slots.modify number fun s ↦ { s with size, value } }
      (replaced.unlink number).linkNewest number
  | none =>
      let (number, grown) := slab.allocate { key, value, size, older := none, newer := none }
      let linked := grown.linkNewest number
      { linked with index := linked.index.insert key number, bytes := linked.bytes + size }

/-- Store a value. The answer tells whether the entry fits the budget. -/
def add (slab : Slab) (key : String) (value : Value) : Step Bool :=
  if slab.budget < entrySize key value then
    let gone := slab.remove key
    ⟨false, gone.slab, gone.departures⟩
  else
    let written := slab.write key value
    let trimmed := trim written.index.size written
    ⟨true, trimmed.slab, trimmed.departures⟩

/-- Forget every entry without telling anyone. The eviction count stays. -/
def clear (slab : Slab) : Slab :=
  { slab with
    bytes := 0, index := ∅, slots := #[], free := [], oldest := none, newest := none }

/-- The keys met on at most `limit` links of the list, from a slot on. -/
def keysFrom (slab : Slab) : Nat → Option Nat → List String
  | 0, _ => []
  | _, none => []
  | limit + 1, some number =>
      match slab.slots[number]? with
      | none => []
      | some slot => slot.key :: slab.keysFrom limit slot.newer

/-- The keys from least to most recently used. -/
def keys (slab : Slab) : List String :=
  slab.keysFrom slab.slots.size slab.oldest

/-- The number of entries, expired ones included. -/
def size (slab : Slab) : Nat :=
  slab.index.size

/-- The diagnostic text of a cache. -/
def describe (slab : Slab) : String :=
  s!"LruCache \x7b entries: {slab.size}, bytes: {slab.bytes}, max_bytes: {slab.budget} \x7d"

end Slab

end ReadThrough
