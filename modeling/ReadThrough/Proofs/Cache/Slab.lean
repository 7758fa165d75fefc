import Mathlib.Data.List.Perm.Basic
import ReadThrough.Cache.Operation
import ReadThrough.Proofs.Cache.Links
import ReadThrough.Proofs.Cache.Recency

/-!
# Linked slots against a list by recency

A slab holds what a list by recency holds (`Holds`) if the ring of its links runs through one slot
for each entry of the list, in the same order, and the index, the charges, the counters and the
free slots go with it. Each change of slots keeps that, so each use does, with the same answer and
the same departures, and `refines_recency` is the induction over a sequence of uses.
-/

namespace ReadThrough

namespace Recency

/-- No use makes a cache miscount, or exceed its budget. -/
theorem sound_use {cache : Recency} (h : cache.Exact) (hfits : cache.bytes ≤ cache.budget)
    (now : Millis) (use : CacheUse) :
    (keeping.use cache now use).2.1.Exact ∧
      (keeping.use cache now use).2.1.bytes ≤ (keeping.use cache now use).2.1.budget := by
  have hbelow : ∀ {after : Recency}, after.Below cache →
      after.Exact ∧ after.bytes ≤ after.budget := fun hbelow ↦
    ⟨hbelow.exact h, hbelow.budget ▸ Nat.le_trans hbelow.bytes hfits⟩
  cases use with
  | add key value =>
      obtain ⟨hexact, hadded⟩ := h.add hfits key value
      exact ⟨hexact, (cache.add_budget key value).symm ▸ hadded⟩
  | get key => exact hbelow (cache.get_below key now)
  | peek | contains | advance => exact ⟨h, hfits⟩
  | remove key => exact hbelow (cache.remove_below key)
  | evictOldest => exact hbelow cache.evictOldest_below
  | clear => exact hbelow cache.clear_below

theorem sound_run {cache : Recency} (h : cache.Exact) (hfits : cache.bytes ≤ cache.budget)
    (now : Millis) (uses : List CacheUse) :
    (keeping.run cache now uses).Exact ∧
      (keeping.run cache now uses).bytes ≤ (keeping.run cache now uses).budget := by
  induction uses generalizing cache now with
  | nil => exact ⟨h, hfits⟩
  | cons use rest ih =>
      obtain ⟨hexact, hwithin⟩ := sound_use h hfits now use
      exact ih hexact hwithin (use.clock now)

theorem use_budget (cache : Recency) (now : Millis) (use : CacheUse) :
    (keeping.use cache now use).2.1.budget = cache.budget := by
  cases use with
  | add key value => exact cache.add_budget key value
  | get key => exact (cache.get_below key now).budget
  | remove key => exact (cache.remove_below key).budget
  | evictOldest => exact cache.evictOldest_below.budget
  | peek | contains | clear | advance => rfl

theorem run_budget (cache : Recency) (now : Millis) (uses : List CacheUse) :
    (keeping.run cache now uses).budget = cache.budget := by
  induction uses generalizing cache now with
  | nil => rfl
  | cons use rest ih => exact (ih _ _).trans (cache.use_budget now use)

end Recency

namespace Slab

/-- A slab holds the entries of a list by recency, in slots of this order. -/
structure Holds (slab : Slab) (cache : Recency) (order : List Nat) : Prop where
  budget : slab.budget = cache.budget
  bytes : slab.bytes = cache.bytes
  evictions : slab.evictions = cache.evictions
  threaded : slab.Threaded order
  partition : (order ++ slab.free).Perm (List.range slab.slots.size)
  entries : cache.entries = order.map fun number ↦ (slab.slotAt number).entry
  charged : ∀ number ∈ order, (slab.slotAt number).size = (slab.slotAt number).entry.size
  indexed : ∀ (key : String) (number : Nat),
    slab.index[key]? = some number ↔ number ∈ order ∧ (slab.slotAt number).key = key
  indexSize : slab.index.size = order.length

/-- The slab with another value in a slot. -/
def revalue (slab : Slab) (number : Nat) (value : Value) : Slab :=
  let size := entrySize (slab.slotAt number).key value
  { slab with
    bytes := slab.bytes - (slab.slotAt number).size + size
    slots := slab.slots.modify number fun s ↦ { s with size, value } }

theorem slotAt_revalue {slab : Slab} {number : Nat} (h : number < slab.slots.size) (value : Value)
    (other : Nat) :
    (slab.revalue number value).slotAt other =
      if other = number then
        { slab.slotAt other with size := entrySize (slab.slotAt number).key value, value }
      else slab.slotAt other :=
  slotAt_modifySlot h _ other

/-- A slab that differs from another one in that a slot that is not on its list was taken for an
entry. -/
structure Takes (after slab : Slab) (order : List Nat) (number : Nat) (slot : Slot) : Prop where
  fresh : number ∉ order
  taken : after.slotAt number = slot
  kept : ∀ other ∈ order, after.slotAt other = slab.slotAt other
  oldest : after.oldest = slab.oldest
  newest : after.newest = slab.newest
  budget : after.budget = slab.budget
  bytes : after.bytes = slab.bytes
  index : after.index = slab.index
  evictions : after.evictions = slab.evictions
  partition : (order ++ [number] ++ after.free).Perm (List.range after.slots.size)
  slots : after.slots.size = max slab.slots.size (order.length + 1)

/-- The slots of a slab whose entries are in slots of this order, from the least to the most
recently used one. -/
structure WellFormed (slab : Slab) (order : List Nat) : Prop where
  /-- the newer links lead from the old end of the list through every slot to its new end -/
  forward : slab.Follows Slot.newer slab.oldest order
  /-- the older links lead through the same slots in the opposite order -/
  backward : slab.Follows Slot.older slab.newest order.reverse
  last : slab.newest = order.getLast?
  once : order.Nodup
  /-- the index names the one slot that holds a key -/
  indexed : ∀ (key : String) (number : Nat), slab.index[key]? = some number ↔
    number ∈ order ∧ ∃ slot, slab.slots[number]? = some slot ∧ slot.key = key
  free : slab.free.Nodup
  /-- every slot is either on the list or free -/
  partition : (order ++ slab.free).Perm (List.range slab.slots.size)

/-- The entries met on at most `limit` links of the list, from a slot on. -/
def entriesFrom (slab : Slab) : Nat → Option Nat → List Entry
  | 0, _ => []
  | _, none => []
  | limit + 1, some number =>
      match slab.slots[number]? with
      | none => []
      | some slot => slot.entry :: slab.entriesFrom limit slot.newer

/-- The entries from the least to the most recently used one. -/
def entries (slab : Slab) : List Entry :=
  slab.entriesFrom slab.slots.size slab.oldest

theorem keysFrom_eq (slab : Slab) (limit : Nat) (start : Option Nat) :
    slab.keysFrom limit start = (slab.entriesFrom limit start).map Entry.key := by
  induction limit generalizing start with
  | zero => cases start <;> rfl
  | succ limit ih =>
      cases start with
      | none => rfl
      | some number =>
          unfold keysFrom entriesFrom
          cases slab.slots[number]? with
          | none => rfl
          | some slot => exact congrArg (slot.key :: ·) (ih slot.newer)

theorem keys_eq (slab : Slab) : slab.keys = slab.entries.map Entry.key :=
  slab.keysFrom_eq _ _

/-- A walk along the newer links lists the entries of the slots that it meets. -/
theorem entriesFrom_of_follows {slab : Slab} {start : Option Nat} {order : List Nat} {limit : Nat}
    (h : slab.Follows Slot.newer start order) (hlimit : order.length ≤ limit) :
    slab.entriesFrom limit start = order.map fun number ↦ (slab.slotAt number).entry := by
  induction order generalizing start limit with
  | nil =>
      obtain rfl : start = none := h
      cases limit <;> rfl
  | cons number rest ih =>
      obtain ⟨rfl, slot, hslot, hrest⟩ := h
      cases limit with
      | zero => cases hlimit
      | succ limit =>
          have hentries := ih hrest (Nat.le_of_succ_le_succ hlimit)
          have hentry : slab.slotAt number = slot := by rw [slotAt, hslot, Option.getD_some]
          simp only [entriesFrom, hslot, hentries, List.map_cons, hentry]

theorem holds_empty (budget : Nat) : Holds (empty budget) (.empty budget) [] where
  budget := rfl
  bytes := rfl
  evictions := rfl
  threaded := .empty budget
  partition := .nil
  entries := rfl
  charged := fun _ h ↦ nomatch h
  indexed := by simp [empty]
  indexSize := by simp [empty]

namespace Holds

variable {slab after : Slab} {cache : Recency} {order : List Nat} {number other : Nat}
  {key : String}

/-! ## What the order says -/

theorem nodup (h : slab.Holds cache order) : (order ++ slab.free).Nodup :=
  h.partition.nodup_iff.2 List.nodup_range

theorem order_nodup (h : slab.Holds cache order) : order.Nodup :=
  h.nodup.of_append_left

theorem lt_size (h : slab.Holds cache order) : ∀ number ∈ order, number < slab.slots.size :=
  fun _ hmem ↦ List.mem_range.1 (h.partition.mem_iff.1 (List.mem_append_left _ hmem))

theorem length_eq (h : slab.Holds cache order) :
    order.length + slab.free.length = slab.slots.size := by
  rw [← List.length_append, h.partition.length_eq, List.length_range]

/-- Slots on the list hold entries of different keys. -/
theorem key_inj (h : slab.Holds cache order) (hnumber : number ∈ order) (hother : other ∈ order)
    (hkey : (slab.slotAt number).key = (slab.slotAt other).key) : number = other := by
  have hfirst := (h.indexed _ number).2 ⟨hnumber, hkey⟩
  have hsecond := (h.indexed _ other).2 ⟨hother, rfl⟩
  exact Option.some.inj (hfirst.symm.trans hsecond)

/-- The entries of other keys are in the other slots. -/
theorem others (h : slab.Holds cache order) (hmem : number ∈ order) :
    cache.others (slab.slotAt number).key =
      (order.erase number).map fun number ↦ (slab.slotAt number).entry := by
  rw [Recency.others, h.entries, List.filter_map, h.order_nodup.erase_eq_filter]
  congr 1
  refine List.filter_congr fun other hother ↦ ?_
  have hiff : (slab.slotAt other).key = (slab.slotAt number).key ↔ other = number :=
    ⟨h.key_inj hother hmem, fun heq ↦ heq ▸ rfl⟩
  simp [Slot.entry, hiff, bne, Bool.beq_eq_decide_eq]

theorem keys (h : slab.Holds cache order) :
    cache.keys = order.map fun number ↦ (slab.slotAt number).key := by
  rw [Recency.keys, h.entries, List.map_map]
  rfl

theorem distinct (h : slab.Holds cache order) : cache.keys.Nodup := by
  rw [h.keys]
  exact h.order_nodup.map_on fun first hfirst second hsecond ↦ h.key_inj hfirst hsecond

/-- A key is found in both, or in neither. -/
theorem find?_cases (h : slab.Holds cache order) (key : String) :
    (slab.find? key = none ∧ cache.find? key = none ∧ slab.index[key]? = none) ∨
    ∃ number ∈ order, slab.find? key = some (number, slab.slotAt number) ∧
      cache.find? key = some (slab.slotAt number).entry ∧ (slab.slotAt number).key = key := by
  cases hindex : slab.index[key]? with
  | none =>
      refine .inl ⟨by simp [Slab.find?, hindex], ?_, rfl⟩
      rw [Recency.find?, h.entries, List.find?_eq_none]
      intro entry hentry
      obtain ⟨number, hmem, rfl⟩ := List.mem_map.1 hentry
      have hne : (slab.slotAt number).key ≠ key := by
        intro hkey
        rw [(h.indexed key number).2 ⟨hmem, hkey⟩] at hindex
        cases hindex
      exact fun heq ↦ hne (of_decide_eq_true heq)
  | some number =>
      obtain ⟨hmem, rfl⟩ := (h.indexed key number).1 hindex
      have hentry : (slab.slotAt number).entry ∈ cache.entries := by
        rw [h.entries]
        exact List.mem_map_of_mem hmem
      refine .inr ⟨number, hmem, ?_, Recency.find?_of_mem h.distinct hentry, rfl⟩
      simp [Slab.find?, hindex, getElem?_slots (h.lt_size number hmem)]

/-! ## The index -/

/-- Taking a key out of the index leaves the keys of the other slots. -/
theorem indexed_erase (h : slab.Holds cache order) (hmem : number ∈ order) (key : String)
    (other : Nat) :
    (slab.index.erase (slab.slotAt number).key)[key]? = some other ↔
      other ∈ order.erase number ∧ (slab.slotAt other).key = key := by
  rw [Std.HashMap.getElem?_erase, h.order_nodup.mem_erase_iff]
  constructor
  · intro hfound
    split at hfound
    · cases hfound
    · next hother =>
      obtain ⟨hmem', rfl⟩ := (h.indexed key other).1 hfound
      have hne : other ≠ number := fun heq ↦ hother (by simp [heq])
      exact ⟨⟨hne, hmem'⟩, rfl⟩
  · rintro ⟨⟨hne, hmem'⟩, rfl⟩
    have hother : (slab.slotAt number).key ≠ (slab.slotAt other).key := fun heq ↦
      hne (h.key_inj hmem' hmem heq.symm)
    rw [if_neg (by simpa using hother), (h.indexed _ other).2 ⟨hmem', rfl⟩]

theorem size_index_erase (h : slab.Holds cache order) (hmem : number ∈ order) :
    (slab.index.erase (slab.slotAt number).key).size = (order.erase number).length := by
  have hheld : (slab.slotAt number).key ∈ slab.index := by
    rw [Std.HashMap.mem_iff_isSome_getElem?, (h.indexed _ number).2 ⟨hmem, rfl⟩]
    rfl
  rw [Std.HashMap.size_erase, if_pos hheld, List.length_erase_of_mem hmem, h.indexSize]

/-- Putting a new key into the index adds the slot that was taken for it. -/
theorem indexed_insert (h : slab.Holds cache order) (hindex : slab.index[key]? = none)
    (hfresh : number ∉ order) (found : String) (other : Nat) :
    (slab.index.insert key number)[found]? = some other ↔
      other = number ∧ key = found ∨ other ∈ order ∧ (slab.slotAt other).key = found := by
  rw [Std.HashMap.getElem?_insert]
  by_cases hkey : key = found
  · subst hkey
    rw [if_pos (by simp)]
    constructor
    · intro hsome
      exact .inl ⟨(Option.some.inj hsome).symm, rfl⟩
    · rintro (⟨rfl, -⟩ | hold)
      · rfl
      · rw [(h.indexed key other).2 hold] at hindex
        cases hindex
  · rw [if_neg (by simpa using hkey), h.indexed]
    constructor
    · exact .inr
    · rintro (⟨-, heq⟩ | hold)
      · exact absurd heq hkey
      · exact hold

theorem size_index_insert (h : slab.Holds cache order) (hindex : slab.index[key]? = none) :
    (slab.index.insert key number).size = order.length + 1 := by
  have hnot : key ∉ slab.index := by
    rw [Std.HashMap.mem_iff_isSome_getElem?, hindex]
    exact Bool.false_ne_true
  rw [Std.HashMap.size_insert, if_neg hnot, h.indexSize]

/-! ## Changes of slots -/

/-- The order changes and nothing else but links. -/
theorem relink (h : slab.Holds cache order) {reordered : List Nat} (hlinks : after.Relinked slab)
    (hperm : reordered.Perm order) (hthreaded : after.Threaded reordered) :
    after.Holds
      { cache with entries := reordered.map fun number ↦ (slab.slotAt number).entry }
      reordered where
  budget := hlinks.budget.trans h.budget
  bytes := hlinks.bytes.trans h.bytes
  evictions := hlinks.evictions.trans h.evictions
  threaded := hthreaded
  partition := by
    rw [hlinks.free, hlinks.slots]
    exact (hperm.append_right _).trans h.partition
  entries := List.map_congr_left fun number _ ↦ (hlinks.entry number).symm
  charged := fun number hmem ↦ by
    rw [hlinks.charge, hlinks.entry]
    exact h.charged number (hperm.mem_iff.1 hmem)
  indexed := fun key number ↦ by
    have hkey : (after.slotAt number).key = (slab.slotAt number).key :=
      congrArg Entry.key (hlinks.entry number)
    rw [hlinks.index, hperm.mem_iff, hkey]
    exact h.indexed key number
  indexSize := by
    rw [hlinks.index, hperm.length_eq]
    exact h.indexSize

/-- A slot that is taken off the list and put at its new end is the most recently used one. -/
theorem touch (h : slab.Holds cache order) (hmem : number ∈ order) :
    ((slab.unlink number).linkNewest number).Holds
      { cache with
        entries := cache.others (slab.slotAt number).key ++ [(slab.slotAt number).entry] }
      (order.erase number ++ [number]) := by
  have hunlinked := Relinked.unlink slab number
  have hbound : ∀ other ∈ order.erase number, other < (slab.unlink number).slots.size := by
    intro other hother
    rw [hunlinked.slots]
    exact h.lt_size other (List.mem_of_mem_erase hother)
  have hthreaded := (h.threaded.unlink h.order_nodup h.lt_size hmem).linkNewest hbound
    (hunlinked.slots ▸ h.lt_size number hmem) h.order_nodup.not_mem_erase
  have hperm : (order.erase number ++ [number]).Perm order :=
    (List.perm_append_singleton _ _).trans (List.perm_cons_erase hmem).symm
  have hrelinked := h.relink ((Relinked.linkNewest _ number).trans hunlinked) hperm hthreaded
  rwa [List.map_append, ← h.others hmem] at hrelinked

/-- The entry of a slot leaves, and the slot is free. -/
theorem depart (h : slab.Holds cache order) (hmem : number ∈ order) (reason : Reason) :
    (slab.depart number reason).result = some (slab.slotAt number) ∧
      (slab.depart number reason).departures = [(slab.slotAt number).entry.departing reason] ∧
      (slab.depart number reason).slab.slots.size = slab.slots.size ∧
      (slab.depart number reason).slab.Holds (cache.depart (slab.slotAt number).entry reason)
        (order.erase number) := by
  have hunlinked := Relinked.unlink slab number
  have hlt := h.lt_size number hmem
  unfold Slab.depart
  rw [getElem?_slots hlt]
  dsimp only
  refine ⟨rfl, rfl, by rw [Array.size_modify, hunlinked.slots], ?_⟩
  set freed : Slab := { slab.unlink number with
    bytes := slab.bytes - (slab.slotAt number).size
    index := slab.index.erase (slab.slotAt number).key
    slots := (slab.unlink number).slots.modify number fun _ ↦ vacant
    free := number :: slab.free
    evictions := if reason = .evicted then slab.evictions + 1 else slab.evictions } with hfreed
  have hslot (other : Nat) (hne : other ≠ number) :
      freed.slotAt other = (slab.unlink number).slotAt other := by
    have hmodify := slotAt_modifySlot (hunlinked.slots ▸ hlt) (fun _ ↦ vacant) other
    rw [if_neg hne] at hmodify
    exact hmodify
  have hleft : ∀ other ∈ order.erase number, other ∈ order ∧ other ≠ number := by
    intro other hother
    obtain ⟨hne, hold⟩ := h.order_nodup.mem_erase_iff.1 hother
    exact ⟨hold, hne⟩
  have hentry : ∀ other ∈ order.erase number, (freed.slotAt other).entry =
      (slab.slotAt other).entry := by
    intro other hother
    rw [hslot other (hleft other hother).2, hunlinked.entry]
  constructor
  · exact hunlinked.budget.trans h.budget
  · show slab.bytes - (slab.slotAt number).size = cache.bytes - (slab.slotAt number).entry.size
    rw [h.bytes, h.charged number hmem]
  · show (if reason = .evicted then slab.evictions + 1 else slab.evictions) = _
    rw [h.evictions]
    rfl
  · refine (h.threaded.unlink h.order_nodup h.lt_size hmem).congr ?_
    rintro link (rfl | ⟨other, hother, rfl⟩)
    · exact ⟨rfl, rfl⟩
    · simp only [newerOf, olderOf, hslot other (hleft other hother).2, true_and]
  · show (order.erase number ++ number :: slab.free).Perm (List.range _)
    rw [Array.size_modify, hunlinked.slots]
    exact List.perm_middle.trans
      (((List.perm_cons_erase hmem).symm.append_right _).trans h.partition)
  · exact (h.others hmem).trans (List.map_congr_left fun other hother ↦ (hentry other hother).symm)
  · intro other hother
    rw [hslot other (hleft other hother).2, hunlinked.charge, hunlinked.entry]
    exact h.charged other (hleft other hother).1
  · intro key other
    refine (h.indexed_erase hmem key other).trans (and_congr_right fun hother ↦ ?_)
    have hkey : (freed.slotAt other).key = (slab.slotAt other).key :=
      congrArg Entry.key (hentry other hother)
    rw [hkey]
  · exact h.size_index_erase hmem

/-- A value is replaced in its slot. -/
theorem revalue (h : slab.Holds cache order) (hmem : number ∈ order) (value : Value) :
    (slab.revalue number value).Holds
      { cache with
        entries := order.map fun other ↦ ((slab.revalue number value).slotAt other).entry
        bytes := cache.bytes - (slab.slotAt number).entry.size +
          entrySize (slab.slotAt number).key value }
      order := by
  have hslot := slotAt_revalue (h.lt_size number hmem) value
  have hkey : ∀ other, ((slab.revalue number value).slotAt other).key =
      (slab.slotAt other).key := by
    intro other
    rw [hslot]
    split <;> rfl
  constructor
  · exact h.budget
  · show slab.bytes - (slab.slotAt number).size + _ = _
    rw [h.bytes, h.charged number hmem]
  · exact h.evictions
  · refine h.threaded.congr ?_
    rintro link (rfl | ⟨other, -, rfl⟩)
    · exact ⟨rfl, rfl⟩
    · simp only [newerOf, olderOf, hslot]
      split <;> exact ⟨rfl, rfl⟩
  · show (order ++ slab.free).Perm (List.range (slab.slots.modify number _).size)
    rw [Array.size_modify]
    exact h.partition
  · rfl
  · intro other hother
    rw [hslot]
    split
    · next heq =>
      subst heq
      rfl
    · exact h.charged other hother
  · intro key other
    rw [hkey]
    exact h.indexed key other
  · exact h.indexSize

/-- An entry takes a free slot, or a new one where none is free. -/
theorem allocate (h : slab.Holds cache order) (slot : Slot) :
    (slab.allocate slot).2.Takes slab order (slab.allocate slot).1 slot := by
  have hlength := h.length_eq
  have hpartition := h.partition
  unfold Slab.allocate
  cases hfree : slab.free with
  | nil =>
      rw [hfree, List.append_nil] at hpartition
      rw [hfree, List.length_nil, Nat.add_zero] at hlength
      refine ⟨?_, ?_, ?_, rfl, rfl, rfl, rfl, rfl, rfl, ?_, ?_⟩
      · exact fun hmem ↦ Nat.lt_irrefl _ (h.lt_size _ hmem)
      · simp [slotAt]
      · intro other hother
        simp [slotAt, Array.getElem?_push, Nat.ne_of_lt (h.lt_size other hother)]
      · show (order ++ [slab.slots.size] ++ []).Perm (List.range (slab.slots.push slot).size)
        rw [List.append_nil, Array.size_push, List.range_succ]
        exact hpartition.append_right _
      · show (slab.slots.push slot).size = _
        rw [Array.size_push]
        omega
  | cons number rest =>
      rw [hfree] at hpartition
      rw [hfree, List.length_cons] at hlength
      have hfresh : number ∉ order := fun hmem ↦
        List.disjoint_of_nodup_append h.nodup hmem (hfree ▸ List.mem_cons_self)
      have hlt : number < slab.slots.size := List.mem_range.1
        (hpartition.mem_iff.1 (List.mem_append_right _ List.mem_cons_self))
      have hslot := slotAt_modifySlot hlt fun _ ↦ slot
      refine ⟨hfresh, ?_, ?_, rfl, rfl, rfl, rfl, rfl, rfl, ?_, ?_⟩
      · exact (hslot number).trans (if_pos rfl)
      · intro other hother
        have hne : other ≠ number := fun heq ↦ hfresh (heq ▸ hother)
        exact (hslot other).trans (if_neg hne)
      · show (order ++ [number] ++ rest).Perm (List.range (slab.slots.modify number _).size)
        rw [Array.size_modify, List.append_assoc, List.singleton_append]
        exact hpartition
      · show (slab.slots.modify number _).size = _
        rw [Array.size_modify]
        omega

/-- An entry of a new key, in a slot that was taken for it and put at the new end of the list. -/
theorem insert (h : slab.Holds cache order) {entry : Entry} (hindex : slab.index[entry.key]? = none)
    {slot : Slot} (hslot : slot.entry = entry) (hcharge : slot.size = entry.size)
    (htakes : after.Takes slab order number slot) :
    Holds { after.linkNewest number with
        index := (after.linkNewest number).index.insert entry.key number
        bytes := (after.linkNewest number).bytes + entry.size }
      { cache with entries := cache.entries ++ [entry], bytes := cache.bytes + entry.size }
      (order ++ [number]) := by
  have hlinked := Relinked.linkNewest after number
  have hlt : ∀ other ∈ order ++ [number], other < after.slots.size := fun other hother ↦
    List.mem_range.1 (htakes.partition.mem_iff.1 (List.mem_append_left _ hother))
  have hthreaded : after.Threaded order := by
    refine h.threaded.congr ?_
    rintro link (rfl | ⟨other, hother, rfl⟩)
    · exact ⟨htakes.oldest, htakes.newest⟩
    · simp only [newerOf, olderOf, htakes.kept other hother, true_and]
  have hentry : ∀ other ∈ order, ((after.linkNewest number).slotAt other).entry =
      (slab.slotAt other).entry := fun other hother ↦ by
    rw [hlinked.entry, htakes.kept other hother]
  have hnew : ((after.linkNewest number).slotAt number).entry = entry := by
    rw [hlinked.entry, htakes.taken, hslot]
  constructor
  · exact hlinked.budget.trans (htakes.budget.trans h.budget)
  · show (after.linkNewest number).bytes + entry.size = _
    rw [hlinked.bytes, htakes.bytes, h.bytes]
  · exact hlinked.evictions.trans (htakes.evictions.trans h.evictions)
  · have hlast := hthreaded.linkNewest
      (fun other hother ↦ hlt other (List.mem_append_left _ hother))
      (hlt number (List.mem_append_right _ (List.mem_singleton_self _))) htakes.fresh
    exact hlast.congr fun link _ ↦ by cases link <;> exact ⟨rfl, rfl⟩
  · show (order ++ [number] ++ (after.linkNewest number).free).Perm
      (List.range (after.linkNewest number).slots.size)
    rw [hlinked.free, hlinked.slots]
    exact htakes.partition
  · show cache.entries ++ [entry] =
      (order ++ [number]).map fun other ↦ ((after.linkNewest number).slotAt other).entry
    rw [List.map_append, h.entries, List.map_congr_left hentry, List.map_singleton, hnew]
  · intro other hother
    show ((after.linkNewest number).slotAt other).size =
      ((after.linkNewest number).slotAt other).entry.size
    rw [hlinked.charge, hlinked.entry]
    rcases List.mem_append.1 hother with hold | hlast
    · rw [htakes.kept other hold]
      exact h.charged other hold
    · rw [List.mem_singleton.1 hlast, htakes.taken, hcharge, hslot]
  · intro key other
    show ((after.linkNewest number).index.insert entry.key number)[key]? = some other ↔
      other ∈ order ++ [number] ∧ ((after.linkNewest number).slotAt other).key = key
    rw [hlinked.index, htakes.index, h.indexed_insert hindex htakes.fresh, List.mem_append,
      List.mem_singleton, or_comm, or_and_right]
    refine or_congr (and_congr_right fun hold ↦ ?_) (and_congr_right fun hlast ↦ ?_)
    · have hkey : ((after.linkNewest number).slotAt other).key = (slab.slotAt other).key :=
        congrArg Entry.key (hentry other hold)
      rw [hkey]
    · have hkey : ((after.linkNewest number).slotAt number).key = entry.key :=
        congrArg Entry.key hnew
      rw [hlast, hkey]
  · show ((after.linkNewest number).index.insert entry.key number).size = _
    rw [hlinked.index, htakes.index, h.size_index_insert hindex, List.length_append,
      List.length_singleton]

/-- Writing an entry of a new key takes a slot for it. -/
theorem write_new (h : slab.Holds cache order) {entry : Entry}
    (hslab : slab.find? entry.key = none) (hcache : cache.find? entry.key = none)
    (hindex : slab.index[entry.key]? = none) :
    (∃ order, (slab.write entry.key entry.value).Holds (cache.write entry) order) ∧
      (slab.write entry.key entry.value).slots.size =
        max slab.slots.size (cache.write entry).size := by
  let slot : Slot :=
    { key := entry.key, value := entry.value, size := entry.size, older := none, newer := none }
  have htakes := h.allocate slot
  have hwritten : slab.write entry.key entry.value =
      { (slab.allocate slot).2.linkNewest (slab.allocate slot).1 with
        index := ((slab.allocate slot).2.linkNewest (slab.allocate slot).1).index.insert
          entry.key (slab.allocate slot).1
        bytes := ((slab.allocate slot).2.linkNewest (slab.allocate slot).1).bytes +
          entry.size } := by
    simp only [Slab.write, hslab]
    rfl
  have hspec : cache.write entry =
      { cache with entries := cache.entries ++ [entry], bytes := cache.bytes + entry.size } := by
    simp only [Recency.write, hcache, Recency.others_eq_of_find? hcache]
  rw [hwritten, hspec]
  refine ⟨⟨_, h.insert hindex rfl rfl htakes⟩, ?_⟩
  show ((slab.allocate slot).2.linkNewest (slab.allocate slot).1).slots.size = _
  rw [(Relinked.linkNewest _ _).slots, htakes.slots, Recency.size, h.entries]
  simp

/-- Writing an entry of a key that is held replaces the value in its slot. -/
theorem write_held (h : slab.Holds cache order) (hmem : number ∈ order) (value : Value)
    (hslab : slab.find? (slab.slotAt number).key = some (number, slab.slotAt number))
    (hcache : cache.find? (slab.slotAt number).key = some (slab.slotAt number).entry) :
    (∃ order, (slab.write (slab.slotAt number).key value).Holds
        (cache.write ⟨(slab.slotAt number).key, value⟩) order) ∧
      (slab.write (slab.slotAt number).key value).slots.size =
        max slab.slots.size (cache.write ⟨(slab.slotAt number).key, value⟩).size := by
  have hslot := slotAt_revalue (h.lt_size number hmem) value
  have hentry : ((slab.revalue number value).slotAt number).entry =
      ⟨(slab.slotAt number).key, value⟩ := by
    rw [hslot, if_pos rfl]
    rfl
  have hwritten : slab.write (slab.slotAt number).key value =
      ((slab.revalue number value).unlink number).linkNewest number := by
    simp only [Slab.write, hslab, Slab.revalue]
  have hrevalued := h.revalue hmem value
  have htouched := hrevalued.touch hmem
  -- the entries of other keys are the same as before
  have hothers : ((order.erase number).map fun other ↦
      ((slab.revalue number value).slotAt other).entry) =
        cache.others (slab.slotAt number).key := by
    rw [h.others hmem]
    refine List.map_congr_left fun other hother ↦ ?_
    rw [hslot, if_neg (h.order_nodup.mem_erase_iff.1 hother).1]
  rw [hrevalued.others hmem, hothers, hentry] at htouched
  have hspec : cache.write ⟨(slab.slotAt number).key, value⟩ =
      { cache with
        entries := cache.others (slab.slotAt number).key ++ [⟨(slab.slotAt number).key, value⟩]
        bytes := cache.bytes - (slab.slotAt number).entry.size +
          entrySize (slab.slotAt number).key value } := by
    simp only [Recency.write, hcache]
    rfl
  rw [hwritten, hspec]
  refine ⟨⟨_, htouched⟩, ?_⟩
  have hcount : (cache.others (slab.slotAt number).key).length + 1 = order.length := by
    rw [h.others hmem, List.length_map, List.length_erase_add_one hmem]
  have hsize : (((slab.revalue number value).unlink number).linkNewest number).slots.size =
      slab.slots.size :=
    ((Relinked.linkNewest _ _).slots.trans (Relinked.unlink _ _).slots).trans Array.size_modify
  have hlength := h.length_eq
  rw [hsize, Recency.size, List.length_append, List.length_singleton, hcount]
  omega

/-- Writing an entry makes it the most recently used one. -/
theorem write (h : slab.Holds cache order) (entry : Entry) :
    (∃ order, (slab.write entry.key entry.value).Holds (cache.write entry) order) ∧
      (slab.write entry.key entry.value).slots.size =
        max slab.slots.size (cache.write entry).size := by
  rcases h.find?_cases entry.key with ⟨hslab, hcache, hindex⟩ | ⟨number, hmem, hslab, hcache, hkey⟩
  · exact h.write_new hslab hcache hindex
  · obtain ⟨_, value⟩ := entry
    subst hkey
    exact h.write_held hmem value hslab hcache

/-! ## Operations -/

theorem evictOldest (h : slab.Holds cache order) :
    slab.evictOldest.result = cache.evictOldest.result.map (fun entry ↦ (entry.key, entry.value)) ∧
      slab.evictOldest.departures = cache.evictOldest.departures ∧
      slab.evictOldest.slab.slots.size = slab.slots.size ∧
      slab.evictOldest.slab.Holds cache.evictOldest.cache order.tail := by
  have holdest : slab.oldest = order.head? := h.threaded.ends.1.1
  unfold Slab.evictOldest Recency.evictOldest
  cases order with
  | nil =>
      rw [holdest, h.entries]
      exact ⟨rfl, rfl, rfl, h⟩
  | cons number rest =>
      obtain ⟨hresult, hdepartures, hslots, hdeparted⟩ := h.depart List.mem_cons_self .evicted
      have hothers := h.others List.mem_cons_self
      rw [List.erase_cons_head] at hothers hdeparted
      have hentries := h.entries
      rw [List.map_cons] at hentries
      rw [Recency.depart, if_pos rfl] at hdeparted
      simp only [holdest, hentries, List.head?_cons, hresult, ← hothers]
      exact ⟨rfl, hdepartures, hslots, hdeparted⟩

theorem trim (h : slab.Holds cache order) {limit : Nat} (hlimit : order.length ≤ limit) :
    (Slab.trim limit slab).departures = cache.trim.departures ∧
      (Slab.trim limit slab).slab.slots.size = slab.slots.size ∧
      ∃ order, (Slab.trim limit slab).slab.Holds cache.trim.cache order := by
  -- both sides give up their oldest entry until the rest fits, one for each step of the limit
  induction limit generalizing slab cache order with
  | zero =>
      obtain rfl := List.length_eq_zero_iff.1 (Nat.le_zero.1 hlimit)
      rw [Recency.trim_of_nil h.entries]
      exact ⟨rfl, rfl, [], h⟩
  | succ limit ih =>
      obtain ⟨hresult, hdepartures, hslots, hevicted⟩ := h.evictOldest
      simp only [Slab.trim]
      by_cases hfits : cache.bytes ≤ cache.budget
      · rw [if_pos (h.bytes ▸ h.budget ▸ hfits), Recency.trim_of_le hfits]
        exact ⟨rfl, rfl, order, h⟩
      · rw [if_neg (h.bytes ▸ h.budget ▸ hfits)]
        cases order with
        | nil =>
            have hnothing : cache.evictOldest.result = none := by
              simp only [Recency.evictOldest, h.entries, List.map_nil]
            rw [hresult, hnothing, Recency.trim_of_nil h.entries]
            exact ⟨rfl, rfl, [], h⟩
        | cons number rest =>
            have hentries := h.entries
            rw [List.map_cons] at hentries
            have hsome : cache.evictOldest.result.isSome := by
              simp only [Recency.evictOldest, hentries, Option.isSome_some]
            have hvictim : slab.evictOldest.result.isSome := by
              rw [hresult, Option.isSome_map]
              exact hsome
            obtain ⟨htrimmed, hsize, hholds⟩ := ih hevicted (Nat.le_of_succ_le_succ hlimit)
            rw [if_pos hvictim, Recency.trim_of_lt hentries (Nat.not_le.1 hfits)]
            refine ⟨?_, hsize.trans hslots, hholds⟩
            rw [← hdepartures, ← htrimmed]

theorem remove (h : slab.Holds cache order) (key : String) :
    (slab.remove key).result = (cache.remove key).result ∧
      (slab.remove key).departures = (cache.remove key).departures ∧
      (slab.remove key).slab.slots.size = slab.slots.size ∧
      ∃ order, (slab.remove key).slab.Holds (cache.remove key).cache order := by
  unfold Slab.remove Recency.remove
  rcases h.find?_cases key with ⟨hnone, hcache, -⟩ | ⟨number, hmem, hsome, hcache, -⟩
  · rw [hnone, hcache]
    exact ⟨rfl, rfl, rfl, order, h⟩
  · obtain ⟨-, hdepartures, hslots, hdeparted⟩ := h.depart hmem .removed
    rw [hsome, hcache]
    exact ⟨rfl, hdepartures, hslots, _, hdeparted⟩

theorem get (h : slab.Holds cache order) (key : String) (now : Millis) :
    (slab.get key now).result = (cache.get key now).result ∧
      (slab.get key now).departures = (cache.get key now).departures ∧
      (slab.get key now).slab.slots.size = slab.slots.size ∧
      ∃ order, (slab.get key now).slab.Holds (cache.get key now).cache order := by
  unfold Slab.get Recency.get
  rcases h.find?_cases key with ⟨hnone, hcache, -⟩ | ⟨number, hmem, hsome, hcache, rfl⟩
  · rw [hnone, hcache]
    exact ⟨rfl, rfl, rfl, order, h⟩
  · rw [hsome, hcache]
    dsimp only [Slot.entry]
    split
    · obtain ⟨-, hdepartures, hslots, hdeparted⟩ := h.depart hmem .expired
      exact ⟨rfl, hdepartures, hslots, _, hdeparted⟩
    · refine ⟨rfl, rfl, ?_, _, h.touch hmem⟩
      exact (Relinked.linkNewest _ number).slots.trans (Relinked.unlink slab number).slots

theorem peek (h : slab.Holds cache order) (key : String) (now : Millis) :
    slab.peek key now = cache.peek key now := by
  unfold Slab.peek Recency.peek
  rcases h.find?_cases key with ⟨hnone, hcache, -⟩ | ⟨number, -, hsome, hcache, -⟩
  · rw [hnone, hcache]
  · rw [hsome, hcache]
    rfl

theorem size_le (h : slab.Holds cache order) : cache.size ≤ slab.slots.size := by
  rw [Recency.size, h.entries, List.length_map, ← h.length_eq]
  exact Nat.le_add_right _ _

theorem add (h : slab.Holds cache order) (key : String) (value : Value) :
    (slab.add key value).result = (cache.add key value).result ∧
      (slab.add key value).departures = (cache.add key value).departures ∧
      (slab.add key value).slab.slots.size =
        max slab.slots.size (cache.crest (.add key value)) ∧
      ∃ order, (slab.add key value).slab.Holds (cache.add key value).cache order := by
  unfold Slab.add Recency.add
  dsimp only [Recency.crest]
  rw [h.budget]
  split
  · obtain ⟨-, hdepartures, hslots, hremoved⟩ := h.remove key
    exact ⟨rfl, hdepartures, hslots.trans (Nat.max_eq_left h.size_le).symm, hremoved⟩
  · obtain ⟨⟨written, hwritten⟩, hslots⟩ := h.write ⟨key, value⟩
    obtain ⟨hdepartures, hsize, htrimmed⟩ := hwritten.trim (Nat.le_of_eq hwritten.indexSize.symm)
    exact ⟨rfl, hdepartures, hsize.trans hslots, htrimmed⟩

theorem clear (h : slab.Holds cache order) : slab.clear.Holds cache.clear [] :=
  { holds_empty cache.budget with
    budget := h.budget
    evictions := h.evictions
    threaded := (holds_empty cache.budget).threaded.congr fun link _ ↦ by
      cases link <;> exact ⟨rfl, rfl⟩ }

/-- One use: the same answer and the same departures, as many slots as the largest number of
entries so far, and the entries that the list by recency holds. -/
theorem use (h : slab.Holds cache order) (now : Millis) (use : CacheUse) :
    (Slab.keeping.use slab now use).1 = (Recency.keeping.use cache now use).1 ∧
      (Slab.keeping.use slab now use).2.2 = (Recency.keeping.use cache now use).2.2 ∧
      (Slab.keeping.use slab now use).2.1.slots.size =
        cache.mark slab.slots.size use ∧
      ∃ order, (Slab.keeping.use slab now use).2.1.Holds
        (Recency.keeping.use cache now use).2.1 order := by
  have hunchanged : slab.slots.size = max slab.slots.size cache.size :=
    (Nat.max_eq_left h.size_le).symm
  cases use with
  | add key value =>
      obtain ⟨hresult, hdepartures, hslots, hadded⟩ := h.add key value
      exact ⟨congrArg CacheAnswer.told hresult, hdepartures, hslots, hadded⟩
  | get key =>
      obtain ⟨hresult, hdepartures, hslots, hread⟩ := h.get key now
      exact ⟨congrArg CacheAnswer.found hresult, hdepartures, hslots.trans hunchanged, hread⟩
  | peek key => exact ⟨congrArg CacheAnswer.found (h.peek key now), rfl, hunchanged, order, h⟩
  | contains key =>
      have hanswer := congrArg (fun value ↦ CacheAnswer.told value.isSome) (h.peek key now)
      exact ⟨hanswer, rfl, hunchanged, order, h⟩
  | remove key =>
      obtain ⟨hresult, hdepartures, hslots, hremoved⟩ := h.remove key
      exact ⟨congrArg CacheAnswer.found hresult, hdepartures, hslots.trans hunchanged, hremoved⟩
  | evictOldest =>
      obtain ⟨hresult, hdepartures, hslots, hevicted⟩ := h.evictOldest
      have hanswer := congrArg CacheAnswer.evicted hresult
      exact ⟨hanswer, hdepartures, hslots.trans hunchanged, _, hevicted⟩
  | clear => exact ⟨rfl, rfl, rfl, [], h.clear⟩
  | advance span => exact ⟨rfl, rfl, hunchanged, order, h⟩

/-! ## What can be seen -/

/-- The walk along the links lists the entries of the list. -/
theorem slab_entries (h : slab.Holds cache order) : slab.entries = cache.entries := by
  have hlimit : order.length ≤ slab.slots.size := h.length_eq ▸ Nat.le_add_right _ _
  rw [h.entries]
  exact entriesFrom_of_follows (h.threaded.forward h.lt_size) hlimit

theorem slab_keys (h : slab.Holds cache order) : slab.keys = cache.keys := by
  rw [slab.keys_eq, h.slab_entries, Recency.keys]

theorem slab_size (h : slab.Holds cache order) : slab.size = cache.size := by
  rw [Slab.size, h.indexSize, Recency.size, h.entries, List.length_map]

/-- What is seen of several uses is the same. -/
theorem views (h : slab.Holds cache order) (listeners : Nat) (now : Millis)
    (uses : List CacheUse) :
    Slab.keeping.views listeners slab now uses =
      Recency.keeping.views listeners cache now uses := by
  induction uses generalizing slab cache order now with
  | nil => rfl
  | cons use rest ih =>
      obtain ⟨hanswer, hdepartures, -, after, hafter⟩ := h.use now use
      simp only [Keeping.views]
      rw [hanswer, hdepartures, ih hafter]
      congr 2
      · exact hafter.slab_keys
      · exact hafter.slab_size
      · exact hafter.bytes
      · exact hafter.evictions

/-- After several uses the slots hold what the list by recency holds, and there are as many of them
as entries were held at once. -/
theorem run (h : slab.Holds cache order) (now : Millis) (uses : List CacheUse) :
    (Slab.keeping.run slab now uses).slots.size = cache.highWater now slab.slots.size uses ∧
      ∃ order,
        (Slab.keeping.run slab now uses).Holds (Recency.keeping.run cache now uses) order := by
  induction uses generalizing slab cache order now with
  | nil => exact ⟨rfl, order, h⟩
  | cons use rest ih =>
      obtain ⟨-, -, hslots, after, hafter⟩ := h.use now use
      have hrest := ih hafter (use.clock now)
      rw [hslots] at hrest
      exact hrest

theorem wellFormed (h : slab.Holds cache order) : slab.WellFormed order where
  forward := h.threaded.forward h.lt_size
  backward := h.threaded.backward h.lt_size
  last := h.threaded.ends.2.2
  once := h.order_nodup
  indexed := fun key number ↦ by
    rw [h.indexed]
    constructor
    · rintro ⟨hmem, hkey⟩
      exact ⟨hmem, _, getElem?_slots (h.lt_size number hmem), hkey⟩
    · rintro ⟨hmem, slot, hslot, hkey⟩
      refine ⟨hmem, ?_⟩
      rwa [slotAt, hslot]
  free := h.nodup.of_append_right
  partition := h.partition

end Holds

/-- For every budget, instant, number of listeners and sequence of uses of a cache that holds
nothing at first, everything that can be seen of the linked slots is what is seen of the plain list
by recency. Whatever the uses were, they leave well-formed slots with the entries of the list in its
order, and as many slots as the largest number of entries held at once since the last clearing. -/
theorem refines_recency (budget listeners : Nat) (now : Millis) (uses : List CacheUse) :
    let slab := Slab.keeping.run (.empty budget) now uses
    let cache := Recency.keeping.run (.empty budget) now uses
    Slab.keeping.views listeners (.empty budget) now uses =
        Recency.keeping.views listeners (.empty budget) now uses ∧
      cache.Exact ∧
      (∃ order, slab.WellFormed order ∧
        cache.entries = order.map fun number ↦ (slab.slotAt number).entry) ∧
      slab.slots.size = (Recency.empty budget).highWater now 0 uses := by
  have hempty := holds_empty budget
  obtain ⟨hslots, order, hholds⟩ := hempty.run now uses
  have hexact := (Recency.sound_run (Recency.exact_empty budget) (Nat.zero_le _) now uses).1
  exact ⟨hempty.views listeners now uses, hexact, ⟨order, hholds.wellFormed, hholds.entries⟩,
    hslots⟩

end Slab

end ReadThrough
