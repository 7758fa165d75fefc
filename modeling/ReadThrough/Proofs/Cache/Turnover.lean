import Mathlib.Data.List.Count
import ReadThrough.Proofs.Cache.Tiered

/-!
# What comes into a cache and what leaves it

Every entry that was inserted is still there or has departed, and every departure for lack of room
is counted as an eviction. `Turnover` says so of an operation of one cache, and of one of a pair;
the entries that come in are those of keys that were not there, as far as they fit. Reads of a pair
are counted by `get_reads`.
-/

namespace ReadThrough

/-- How many departures there are for a reason. -/
def departed (reason : Reason) (departures : List Departure) : Nat :=
  departures.countP fun departure ↦ departure.reason = reason

@[simp] theorem departed_nil (reason : Reason) : departed reason [] = 0 := rfl

@[simp] theorem departed_append (reason : Reason) (first second : List Departure) :
    departed reason (first ++ second) = departed reason first + departed reason second :=
  List.countP_append

@[simp] theorem departed_departing (reason : Reason) (entry : Entry) (other : Reason) :
    departed reason [entry.departing other] = if other = reason then 1 else 0 := by
  simp [departed, Entry.departing, List.countP_cons]

/-- Every departure is for one of the three reasons. -/
theorem length_eq_departed (departures : List Departure) :
    departures.length = departed .evicted departures + departed .removed departures +
      departed .expired departures := by
  induction departures with
  | nil => rfl
  | cons departure rest ih =>
      obtain ⟨key, value, reason⟩ := departure
      cases reason <;> simp [departed] at ih ⊢ <;> omega

namespace Recency

/-- What an operation did to the entries of a cache: of those that there were and those that were
inserted, some departed and the others are there. -/
structure Turnover (before : Recency) (inserted : Nat) (departures : List Departure)
    (after : Recency) : Prop where
  size : after.size + departures.length = before.size + inserted
  evictions : after.evictions = before.evictions + departed .evicted departures

/-- Storing a value inserts an entry: it fits, and there is none of its key. -/
def inserts (cache : Recency) (key : String) (value : Value) : Bool :=
  entrySize key value ≤ cache.budget && (cache.find? key).isNone

variable {cache middle after : Recency} {inserted more : Nat} {first second : List Departure}

theorem Turnover.refl (cache : Recency) : Turnover cache 0 [] cache :=
  ⟨rfl, rfl⟩

theorem Turnover.trans (h : Turnover cache inserted first middle)
    (h' : Turnover middle more second after) :
    Turnover cache (inserted + more) (first ++ second) after where
  size := by
    have hsize := h.size
    have hsize' := h'.size
    rw [List.length_append]
    omega
  evictions := by rw [h'.evictions, h.evictions, departed_append, Nat.add_assoc]

/-- One entry is missing among those of the other keys. -/
theorem length_others (h : cache.keys.Nodup) {entry : Entry} (hmem : entry ∈ cache.entries) :
    (cache.others entry.key).length + 1 = cache.entries.length :=
  (perm_others h hmem).length_eq.symm

theorem turnover_depart (h : cache.keys.Nodup) {entry : Entry} (hmem : entry ∈ cache.entries)
    (reason : Reason) :
    Turnover cache 0 [entry.departing reason] (cache.depart entry reason) where
  size := length_others h hmem
  evictions := by
    rw [departed_departing]
    unfold depart
    split <;> rfl

theorem turnover_get (h : cache.keys.Nodup) (key : String) (now : Millis) :
    Turnover cache 0 (cache.get key now).departures (cache.get key now).cache := by
  unfold get
  split
  · exact .refl cache
  · next entry hfind =>
    obtain ⟨hmem, rfl⟩ := of_find? hfind
    split
    · exact turnover_depart h hmem .expired
    · refine ⟨?_, rfl⟩
      show (cache.others entry.key ++ [entry]).length + 0 = cache.entries.length + 0
      rw [List.length_append, List.length_singleton, length_others h hmem, Nat.add_zero]

theorem turnover_remove (h : cache.keys.Nodup) (key : String) :
    Turnover cache 0 (cache.remove key).departures (cache.remove key).cache := by
  unfold remove
  split
  · exact .refl cache
  · next entry hfind => exact turnover_depart h (of_find? hfind).1 .removed

theorem turnover_evictOldest (cache : Recency) :
    Turnover cache 0 cache.evictOldest.departures cache.evictOldest.cache := by
  unfold evictOldest
  split
  · exact .refl cache
  · next entry rest hentries =>
    refine ⟨?_, by simp⟩
    simp [size, hentries]

theorem turnover_trim (cache : Recency) :
    Turnover cache 0 cache.trim.departures cache.trim.cache := by
  unfold trim
  dsimp only
  generalize overflow cache.budget cache.entries cache.bytes = count
  refine ⟨?_, ?_⟩
  · simp only [size, List.length_drop, List.length_map, List.length_take]
    omega
  · have hall : departed .evicted ((cache.entries.take count).map fun entry ↦
        entry.departing .evicted) = (cache.entries.take count).length := by
      rw [departed, List.countP_map]
      exact List.countP_eq_length.2 fun _ _ ↦ rfl
    rw [hall]

theorem turnover_write (h : cache.keys.Nodup) (entry : Entry) :
    Turnover cache (cache.find? entry.key).isNone.toNat [] (cache.write entry) where
  size := by
    show (cache.others entry.key ++ [entry]).length + 0 = cache.entries.length + _
    rw [List.length_append, List.length_singleton]
    cases hfind : cache.find? entry.key with
    | none => rw [others_eq_of_find? hfind]; rfl
    | some old =>
        obtain ⟨hmem, hkey⟩ := of_find? hfind
        rw [← hkey, length_others h hmem]
        rfl
  evictions := rfl

theorem turnover_add (h : cache.keys.Nodup) (key : String) (value : Value) :
    Turnover cache (cache.inserts key value).toNat (cache.add key value).departures
      (cache.add key value).cache := by
  unfold add inserts
  split
  · next hlarge =>
    rw [decide_eq_false (Nat.not_le_of_lt hlarge), Bool.false_and]
    exact turnover_remove h key
  · next hfits =>
    rw [decide_eq_true (Nat.le_of_not_lt hfits), Bool.true_and]
    exact (turnover_write h ⟨key, value⟩).trans (turnover_trim _)

end Recency

namespace Tiered

/-- What an operation did to the entries of a pair: of those that there were and those that were
inserted, some departed and the others are there. -/
structure Turnover (before : Tiered) (inserted : Nat) (departures : List Departure)
    (after : Tiered) : Prop where
  size : after.size + departures.length = before.size + inserted
  evictions : after.main.evictions + after.hot.evictions =
    before.main.evictions + before.hot.evictions + departed .evicted departures

/-- Storing a value in a tier inserts an entry there. -/
def inserts (cache : Tiered) (key : String) (value : Value) (tier : Tier) : Bool :=
  cache.policy.cacheBytes ≠ 0 &&
    match tier with
    | .main => cache.main.inserts key value
    | .hot => cache.hot.inserts key value

variable {cache middle after : Tiered} {inserted more : Nat} {first second : List Departure}

theorem Turnover.refl (cache : Tiered) : Turnover cache 0 [] cache :=
  ⟨rfl, rfl⟩

theorem Turnover.trans (h : Turnover cache inserted first middle)
    (h' : Turnover middle more second after) :
    Turnover cache (inserted + more) (first ++ second) after where
  size := by
    have hsize := h.size
    have hsize' := h'.size
    rw [List.length_append]
    omega
  evictions := by rw [h'.evictions, h.evictions, departed_append, Nat.add_assoc]

/-- What happened to the tiers happened to the pair. -/
theorem turnover_pair (hmain : cache.main.Turnover inserted first after.main)
    (hhot : cache.hot.Turnover more second after.hot) :
    Turnover cache (inserted + more) (first ++ second) after where
  size := by
    have hsize := hmain.size
    have hsize' := hhot.size
    rw [List.length_append]
    unfold Tiered.size
    omega
  evictions := by
    rw [hmain.evictions, hhot.evictions, departed_append]
    omega

/-- The order of departures does not matter. -/
theorem Turnover.swap (h : Turnover cache inserted (first ++ second) after) :
    Turnover cache inserted (second ++ first) after where
  size := by
    rw [← h.size, List.length_append, List.length_append, Nat.add_comm second.length]
  evictions := by
    rw [h.evictions, departed_append, departed_append, Nat.add_comm (departed _ second)]

theorem turnover_main (hmain : cache.main.Turnover inserted first after.main)
    (hhot : after.hot = cache.hot) : Turnover cache inserted first after := by
  have hkept : cache.hot.Turnover 0 [] after.hot := hhot.symm ▸ .refl cache.hot
  have hpair := turnover_pair hmain hkept
  rwa [List.append_nil] at hpair

theorem turnover_hot (hhot : cache.hot.Turnover inserted first after.hot)
    (hmain : after.main = cache.main) : Turnover cache inserted first after := by
  have hkept : cache.main.Turnover 0 [] after.main := hmain.symm ▸ .refl cache.main
  have hpair := turnover_pair hkept hhot
  rwa [Nat.zero_add, List.nil_append] at hpair

theorem turnover_get (h : cache.Sound) (key : String) (now : Millis) :
    Turnover cache 0 (cache.get key now).departures (cache.get key now).cache := by
  have hmain := Recency.turnover_get h.mainExact.distinct key now
  have hhot := Recency.turnover_get h.hotExact.distinct key now
  unfold get
  split
  · exact .refl cache
  · dsimp only
    split
    · exact turnover_main hmain rfl
    · show Turnover cache (0 + 0) _ _
      exact turnover_pair hmain hhot

theorem turnover_remove (h : cache.Sound) (key : String) :
    Turnover cache 0 (cache.remove key).departures (cache.remove key).cache := by
  show Turnover cache (0 + 0) _ _
  exact turnover_pair (Recency.turnover_remove h.mainExact.distinct key)
    (Recency.turnover_remove h.hotExact.distinct key)

theorem turnover_giveWay (cache : Tiered) :
    Turnover cache 0 cache.giveWay.departures cache.giveWay.cache := by
  unfold giveWay
  split
  · exact turnover_hot cache.hot.turnover_evictOldest rfl
  · exact turnover_main cache.main.turnover_evictOldest rfl

theorem turnover_balance (cache : Tiered) :
    Turnover cache 0 cache.balance.departures cache.balance.cache := by
  induction cache using balance.induct with
  | case1 cache hwithin =>
      rw [balance, if_pos hwithin]
      exact .refl cache
  | case2 cache hover victim hsome ih =>
      rw [balance, if_neg hover]
      simp only [victim, hsome, dite_true] at ih ⊢
      exact (turnover_giveWay cache).trans ih
  | case3 cache hover victim hnone =>
      rw [balance, if_neg hover]
      simp only [victim] at hnone
      simp only [hnone]
      exact .refl cache

/-- What the placing of a value inserts, before the pair is balanced. -/
theorem turnover_place (h : cache.Sound) (key : String) (value : Value) (tier : Tier) :
    Turnover cache
      (match tier with
        | .main => cache.main.inserts key value
        | .hot => cache.hot.inserts key value).toNat
      (cache.place key value tier).departures (cache.place key value tier).cache := by
  cases tier with
  | main =>
      have hplaced : Turnover cache ((cache.main.inserts key value).toNat + 0) _
          (cache.place key value .main).cache := turnover_pair
        (Recency.turnover_add h.mainExact.distinct key value)
        (Recency.turnover_remove h.hotExact.distinct key)
      exact hplaced.swap
  | hot =>
      have hplaced : Turnover cache (0 + (cache.hot.inserts key value).toNat) _
          (cache.place key value .hot).cache := turnover_pair
        (Recency.turnover_remove h.mainExact.distinct key)
        (Recency.turnover_add h.hotExact.distinct key value)
      rwa [Nat.zero_add] at hplaced

theorem turnover_add (h : cache.Sound) (key : String) (value : Value) (tier : Tier) :
    Turnover cache (cache.inserts key value tier).toNat (cache.add key value tier).departures
      (cache.add key value tier).cache := by
  unfold add inserts
  by_cases hzero : cache.policy.cacheBytes = 0
  · rw [if_pos hzero, decide_eq_false (not_not.2 hzero), Bool.false_and]
    exact .refl cache
  · rw [if_neg hzero, decide_eq_true hzero, Bool.true_and]
    exact (turnover_place h key value tier).trans (turnover_balance _)

/-! ## Reads -/

/-- Reading counts a read of the main tier, and one of the hot tier where the main one had
nothing. -/
theorem get_reads (cache : Tiered) (key : String) (now : Millis) :
    let read := cache.get key now
    read.cache.mainReads.gets =
        cache.mainReads.gets + (decide (cache.policy.cacheBytes ≠ 0)).toNat ∧
      read.cache.mainReads.hits + read.cache.hotReads.hits =
        cache.mainReads.hits + cache.hotReads.hits + read.result.isSome.toNat ∧
      read.cache.hotReads.gets + read.cache.mainReads.hits + cache.mainReads.gets =
        cache.hotReads.gets + cache.mainReads.hits + read.cache.mainReads.gets := by
  dsimp only
  unfold get
  by_cases hzero : cache.policy.cacheBytes = 0
  · simp [hzero]
  · rw [if_neg hzero]
    dsimp only
    split
    · simp only [TierReads.hit]
      refine ⟨by simp [hzero], by simp; omega, by omega⟩
    · cases hhot : (cache.hot.get key now).result with
      | none =>
          simp only [TierReads.miss]
          refine ⟨by simp [hzero], by simp, by simp; omega⟩
      | some value =>
          simp only [TierReads.hit, TierReads.miss]
          refine ⟨by simp [hzero], by simp; omega, by simp; omega⟩

theorem balance_reads (cache : Tiered) :
    cache.balance.cache.mainReads = cache.mainReads ∧
      cache.balance.cache.hotReads = cache.hotReads := by
  induction cache using balance.induct with
  | case1 cache hwithin => rw [balance, if_pos hwithin]; exact ⟨rfl, rfl⟩
  | case2 cache hover victim hsome ih =>
      rw [balance, if_neg hover]
      simp only [victim, hsome, dite_true] at ih ⊢
      have hreads : cache.giveWay.cache.mainReads = cache.mainReads ∧
          cache.giveWay.cache.hotReads = cache.hotReads := by
        unfold giveWay
        split <;> exact ⟨rfl, rfl⟩
      exact ⟨ih.1.trans hreads.1, ih.2.trans hreads.2⟩
  | case3 cache hover victim hnone =>
      rw [balance, if_neg hover]
      simp only [victim] at hnone
      simp only [hnone]
      exact ⟨rfl, rfl⟩

/-- Storing counts no reads. -/
theorem add_reads (cache : Tiered) (key : String) (value : Value) (tier : Tier) :
    (cache.add key value tier).cache.mainReads = cache.mainReads ∧
      (cache.add key value tier).cache.hotReads = cache.hotReads := by
  unfold add
  split
  · exact ⟨rfl, rfl⟩
  · have hreads := balance_reads (cache.place key value tier).cache
    cases tier <;> exact hreads

theorem add_policy (cache : Tiered) (key : String) (value : Value) (tier : Tier) :
    (cache.add key value tier).cache.policy = cache.policy := by
  unfold add
  split
  · rfl
  · exact (balance_below _).policy.trans (place_policy _ _ _ _)

end Tiered

end ReadThrough
