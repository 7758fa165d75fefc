import Mathlib.Algebra.Order.Ring.Nat
import Mathlib.Data.List.Nodup
import ReadThrough.Cache.Recency

/-!
# The bytes of a recency cache

A cache counts right when no key has two entries and the running count of bytes is what its
entries are charged for. Every operation keeps it so. Reading and taking out leave a cache that
holds no more than before (`Below`); storing leaves one within its budget.
-/

namespace ReadThrough

/-- The bytes that a list of entries is charged for. -/
def charge (entries : List Entry) : Nat :=
  (entries.map Entry.size).sum

@[simp] theorem charge_nil : charge [] = 0 := rfl

@[simp] theorem charge_cons (entry : Entry) (rest : List Entry) :
    charge (entry :: rest) = entry.size + charge rest := by
  simp [charge]

@[simp] theorem charge_append (front back : List Entry) :
    charge (front ++ back) = charge front + charge back := by
  simp [charge]

namespace Recency

/-- The cache holds at most one entry of each key, and counts the bytes of its entries. -/
structure Exact (cache : Recency) : Prop where
  distinct : cache.keys.Nodup
  counted : cache.bytes = charge cache.entries

/-- A cache with the budget of another one that holds nothing else, and counts right if that one
does. -/
structure Below (after cache : Recency) : Prop where
  budget : after.budget = cache.budget
  entries : ∀ entry ∈ after.entries, entry ∈ cache.entries
  bytes : after.bytes ≤ cache.bytes
  exact : cache.Exact → after.Exact

theorem Below.refl (cache : Recency) : Below cache cache :=
  ⟨rfl, fun _ h ↦ h, Nat.le_refl _, id⟩

theorem Below.trans {first second third : Recency} (h : Below first second)
    (h' : Below second third) : Below first third where
  budget := h.budget.trans h'.budget
  entries := fun entry hmem ↦ h'.entries entry (h.entries entry hmem)
  bytes := Nat.le_trans h.bytes h'.bytes
  exact := h.exact ∘ h'.exact

theorem exact_empty (budget : Nat) : Exact (empty budget) :=
  ⟨List.nodup_nil, rfl⟩

/-! ## Single entries -/

theorem mem_others {cache : Recency} {key : String} {entry : Entry} :
    entry ∈ cache.others key ↔ entry ∈ cache.entries ∧ entry.key ≠ key := by
  simp [others]

/-- The entry that is found is there and has the key. -/
theorem of_find? {cache : Recency} {key : String} {entry : Entry}
    (h : cache.find? key = some entry) : entry ∈ cache.entries ∧ entry.key = key := by
  refine ⟨List.mem_of_find?_eq_some h, ?_⟩
  simpa using List.find?_some h

/-- Where no entry is found, all entries have other keys. -/
theorem ne_of_find? {cache : Recency} {key : String} (h : cache.find? key = none) :
    ∀ entry ∈ cache.entries, entry.key ≠ key := by
  simpa [find?] using h

/-- The entry of a key is found. -/
theorem find?_of_mem {cache : Recency} {entry : Entry} (h : cache.keys.Nodup)
    (hmem : entry ∈ cache.entries) : cache.find? entry.key = some entry := by
  cases hfind : cache.find? entry.key with
  | none => exact absurd rfl (ne_of_find? hfind entry hmem)
  | some found =>
      obtain ⟨hfound, hkey⟩ := of_find? hfind
      rw [List.inj_on_of_nodup_map h hfound hmem hkey]

theorem others_eq_of_find? {cache : Recency} {key : String} (h : cache.find? key = none) :
    cache.others key = cache.entries := by
  rw [others, List.filter_eq_self]
  simpa using ne_of_find? h

theorem nodup_others {cache : Recency} (h : cache.keys.Nodup) (key : String) :
    ((cache.others key).map Entry.key).Nodup :=
  h.sublist (List.filter_sublist.map Entry.key)

/-- An entry and those of other keys are all that there are. -/
theorem perm_others {entries : List Entry} (hnodup : (entries.map Entry.key).Nodup)
    {entry : Entry} (hmem : entry ∈ entries) :
    entries.Perm (entry :: entries.filter fun e ↦ e.key ≠ entry.key) := by
  induction entries with
  | nil => cases hmem
  | cons first rest ih =>
      rw [List.map_cons, List.nodup_cons] at hnodup
      obtain ⟨hfirst, hrest⟩ := hnodup
      rcases List.mem_cons.1 hmem with rfl | hmem
      · have hself : rest.filter (fun e ↦ e.key ≠ entry.key) = rest := by
          rw [List.filter_eq_self]
          intro other hother
          have hne : other.key ≠ entry.key := fun heq ↦
            hfirst (heq ▸ List.mem_map_of_mem hother)
          simpa using hne
        rw [List.filter_cons_of_neg (by simp), hself]
      · have hne : first.key ≠ entry.key := fun heq ↦
          hfirst (heq ▸ List.mem_map_of_mem hmem)
        rw [List.filter_cons_of_pos (by simpa using hne)]
        exact ((ih hrest hmem).cons first).trans (.swap entry first _)

/-- The entries of other keys are charged for all bytes but those of the entry itself. -/
theorem charge_others {entries : List Entry} (hnodup : (entries.map Entry.key).Nodup)
    {entry : Entry} (hmem : entry ∈ entries) :
    charge (entries.filter fun e ↦ e.key ≠ entry.key) + entry.size = charge entries := by
  rw [Nat.add_comm, ← charge_cons]
  exact ((perm_others hnodup hmem).map Entry.size).sum_nat.symm

/-- Taking out an entry that is there leaves less. -/
theorem depart_below {cache : Recency} {entry : Entry} (hmem : entry ∈ cache.entries)
    (reason : Reason) : Below (cache.depart entry reason) cache where
  budget := rfl
  entries := fun _ hother ↦ (mem_others.1 hother).1
  bytes := Nat.sub_le _ _
  exact := by
    intro h
    refine ⟨nodup_others h.distinct _, ?_⟩
    have hcharge := charge_others h.distinct hmem
    show cache.bytes - entry.size = charge (cache.others entry.key)
    rw [h.counted, ← hcharge, Nat.add_sub_cancel]
    rfl

/-- Putting an entry at the recent end keeps the keys apart if the others have other keys. -/
theorem nodup_append {cache : Recency} (h : cache.keys.Nodup) {entry : Entry} :
    ((cache.others entry.key ++ [entry]).map Entry.key).Nodup := by
  rw [List.map_append, List.nodup_append]
  refine ⟨nodup_others h _, by simp, ?_⟩
  intro key hkey other hother heq
  obtain ⟨held, hheld, rfl⟩ := List.mem_map.1 hkey
  have hlast : other = entry.key := by simpa using hother
  exact (mem_others.1 hheld).2 (heq.trans hlast)

/-! ## Reading and taking out -/

theorem get_below (cache : Recency) (key : String) (now : Millis) :
    Below (cache.get key now).cache cache := by
  unfold get
  cases hfind : cache.find? key with
  | none => exact .refl cache
  | some entry =>
      obtain ⟨hmem, rfl⟩ := of_find? hfind
      by_cases hexpired : entry.value.expired now = true
      · simp only [hexpired, if_true]
        exact depart_below hmem .expired
      · simp only [hexpired]
        refine ⟨rfl, ?_, Nat.le_refl _, ?_⟩
        · intro other hother
          rcases List.mem_append.1 hother with hother | hlast
          · exact (mem_others.1 hother).1
          · rw [List.mem_singleton.1 hlast]
            exact hmem
        · intro h
          refine ⟨nodup_append h.distinct, ?_⟩
          show cache.bytes = charge (cache.others entry.key ++ [entry])
          rw [charge_append, charge_cons, charge_nil, Nat.add_zero, h.counted]
          exact (charge_others h.distinct hmem).symm

/-- What is read without touching anything is an entry of the key. -/
theorem mem_of_peek {cache : Recency} {key : String} {now : Millis} {value : Value}
    (h : cache.peek key now = some value) : ⟨key, value⟩ ∈ cache.entries := by
  unfold peek at h
  cases hfind : cache.find? key with
  | none => simp [hfind] at h
  | some entry =>
      obtain ⟨hmem, rfl⟩ := of_find? hfind
      rw [hfind] at h
      dsimp only at h
      split at h
      · cases h
      · cases h
        exact hmem

/-- A read answers what is seen without one. -/
theorem get_result (cache : Recency) (key : String) (now : Millis) :
    (cache.get key now).result = cache.peek key now := by
  unfold get peek
  split
  · rfl
  · split <;> rfl

/-- What is read is an entry of the key. -/
theorem mem_of_get {cache : Recency} {key : String} {now : Millis} {value : Value}
    (h : (cache.get key now).result = some value) : ⟨key, value⟩ ∈ cache.entries :=
  mem_of_peek (cache.get_result key now ▸ h)

theorem remove_below (cache : Recency) (key : String) :
    Below (cache.remove key).cache cache := by
  unfold remove
  cases hfind : cache.find? key with
  | none => exact .refl cache
  | some entry => exact depart_below (of_find? hfind).1 .removed

/-- A key that was taken out is not held. -/
theorem ne_of_mem_remove {cache : Recency} {key : String} {entry : Entry}
    (h : entry ∈ (cache.remove key).cache.entries) : entry.key ≠ key := by
  unfold remove at h
  cases hfind : cache.find? key with
  | none =>
      rw [hfind] at h
      exact ne_of_find? hfind entry h
  | some found =>
      obtain ⟨-, rfl⟩ := of_find? hfind
      rw [hfind] at h
      exact (mem_others.1 h).2

theorem clear_below (cache : Recency) : Below cache.clear cache :=
  ⟨rfl, fun _ h ↦ absurd h List.not_mem_nil, Nat.zero_le _, fun _ ↦ ⟨List.nodup_nil, rfl⟩⟩

theorem evictOldest_below (cache : Recency) : Below cache.evictOldest.cache cache := by
  unfold evictOldest
  cases hentries : cache.entries with
  | nil => exact .refl cache
  | cons entry rest =>
      refine ⟨rfl, ?_, Nat.sub_le _ _, ?_⟩
      · intro other hother
        rw [hentries]
        exact List.mem_cons_of_mem _ hother
      · intro h
        have hdistinct := h.distinct
        have hcounted := h.counted
        rw [keys, hentries, List.map_cons, List.nodup_cons] at hdistinct
        rw [hentries, charge_cons] at hcounted
        exact ⟨hdistinct.2, by simp [hcounted]⟩

/-- There is an oldest entry wherever bytes are in use. -/
theorem isSome_evictOldest {cache : Recency} (h : cache.Exact) (hused : 0 < cache.bytes) :
    cache.evictOldest.result.isSome := by
  unfold evictOldest
  cases hentries : cache.entries with
  | nil => simp [h.counted, hentries] at hused
  | cons entry rest => rfl

/-! ## Storing -/

/-- The entries that are left after an overflow fit the budget. -/
theorem charge_drop_overflow (budget : Nat) (entries : List Entry) :
    charge (entries.drop (overflow budget entries (charge entries))) ≤ budget := by
  induction entries with
  | nil => simp
  | cons entry rest ih =>
      unfold overflow
      split
      · next hfits => exact hfits
      · rw [List.drop_succ_cons, charge_cons, Nat.add_sub_cancel_left]
        exact ih

/-- Taking the size of every victim off the bytes of all entries leaves those of the others. -/
theorem foldl_size (victims rest : List Entry) :
    victims.foldl (fun bytes entry ↦ bytes - entry.size) (charge (victims ++ rest)) =
      charge rest := by
  induction victims with
  | nil => rfl
  | cons entry others ih =>
      rw [List.foldl_cons, List.cons_append, charge_cons, Nat.add_sub_cancel_left]
      exact ih

/-- Nothing is evicted within the budget. -/
theorem trim_of_le {cache : Recency} (h : cache.bytes ≤ cache.budget) :
    cache.trim = ⟨(), cache, []⟩ := by
  have hoverflow : overflow cache.budget cache.entries cache.bytes = 0 := by
    unfold overflow
    split
    · rfl
    · rw [if_pos h]
  simp [trim, hoverflow]

/-- Nothing is evicted from a cache that holds nothing. -/
theorem trim_of_nil {cache : Recency} (h : cache.entries = []) :
    cache.trim = ⟨(), cache, []⟩ := by
  obtain ⟨budget, entries, bytes, evictions⟩ := cache
  obtain rfl : entries = [] := h
  rfl

/-- Over the budget the oldest entry is evicted, and then what is over the budget still. -/
theorem trim_of_lt {cache : Recency} {entry : Entry} {rest : List Entry}
    (hentries : cache.entries = entry :: rest) (h : cache.budget < cache.bytes) :
    cache.trim = ⟨(), cache.evictOldest.cache.trim.cache,
      cache.evictOldest.departures ++ cache.evictOldest.cache.trim.departures⟩ := by
  have hoverflow : overflow cache.budget (entry :: rest) cache.bytes =
      overflow cache.budget rest (cache.bytes - entry.size) + 1 := by
    rw [overflow, if_neg (Nat.not_le.2 h)]
  simp only [trim, evictOldest, hentries, hoverflow, List.take_succ_cons, List.drop_succ_cons,
    List.foldl_cons, List.length_cons, List.map_cons, List.cons_append, List.nil_append]
  rw [Nat.add_right_comm, ← Nat.add_assoc]

theorem trim_entries (cache : Recency) :
    ∀ entry ∈ cache.trim.cache.entries, entry ∈ cache.entries :=
  fun _ h ↦ List.mem_of_mem_drop h

/-- Trimming a cache that counts right leaves one that does, within its budget. -/
theorem Exact.trim {cache : Recency} (h : cache.Exact) :
    cache.trim.cache.Exact ∧ cache.trim.cache.bytes ≤ cache.budget := by
  have hbytes : cache.trim.cache.bytes = charge cache.trim.cache.entries := by
    have hfold := fun count ↦ foldl_size (cache.entries.take count) (cache.entries.drop count)
    simp only [List.take_append_drop, ← h.counted] at hfold
    exact hfold _
  refine ⟨⟨?_, hbytes⟩, ?_⟩
  · exact h.distinct.sublist ((List.drop_sublist _ _).map Entry.key)
  · rw [hbytes]
    show charge (cache.entries.drop (overflow cache.budget cache.entries cache.bytes)) ≤ _
    rw [h.counted]
    exact charge_drop_overflow _ _

theorem mem_write {cache : Recency} {entry other : Entry} :
    other ∈ (cache.write entry).entries ↔
      other ∈ cache.entries ∧ other.key ≠ entry.key ∨ other = entry := by
  simp [write, mem_others]

theorem Exact.write {cache : Recency} (h : cache.Exact) (entry : Entry) :
    (cache.write entry).Exact := by
  refine ⟨nodup_append h.distinct, ?_⟩
  show _ = charge (cache.others entry.key ++ [entry])
  rw [charge_append, charge_cons, charge_nil, Nat.add_zero]
  unfold Recency.write
  simp only
  cases hfind : cache.find? entry.key with
  | none => rw [others_eq_of_find? hfind, h.counted]
  | some old =>
      -- the size of the old entry is taken off before that of the new one is put on
      obtain ⟨hmem, hkey⟩ := of_find? hfind
      have hcharge := charge_others h.distinct hmem
      rw [hkey] at hcharge
      simp only [h.counted, ← hcharge, Nat.add_sub_cancel]
      rfl

/-- Storing keeps the budget. -/
@[simp] theorem add_budget (cache : Recency) (key : String) (value : Value) :
    (cache.add key value).cache.budget = cache.budget := by
  unfold add
  split
  · exact (cache.remove_below key).budget
  · rfl

/-- Storing leaves the new entry, if it fits, and entries of other keys. -/
theorem mem_add {cache : Recency} {key : String} {value : Value} {entry : Entry}
    (h : entry ∈ (cache.add key value).cache.entries) :
    entry ∈ cache.entries ∧ entry.key ≠ key ∨ entry = ⟨key, value⟩ := by
  unfold add at h
  split at h
  · exact .inl ⟨(cache.remove_below key).entries entry h, ne_of_mem_remove h⟩
  · exact mem_write.1 (trim_entries _ entry h)

/-- Storing in a cache within its budget leaves one that counts right, within its budget. -/
theorem Exact.add {cache : Recency} (h : cache.Exact) (hfits : cache.bytes ≤ cache.budget)
    (key : String) (value : Value) :
    (cache.add key value).cache.Exact ∧ (cache.add key value).cache.bytes ≤ cache.budget := by
  unfold Recency.add
  split
  · have hbelow := cache.remove_below key
    exact ⟨hbelow.exact h, Nat.le_trans hbelow.bytes hfits⟩
  · exact (h.write ⟨key, value⟩).trim

end Recency

end ReadThrough
