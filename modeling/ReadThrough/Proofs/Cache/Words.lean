import ReadThrough.Cache.Words
import ReadThrough.Proofs.Cache.Slab
import ReadThrough.Proofs.Cache.Tiered

/-!
# Bytes never wrap around

The bytes of a tier are the sizes of the slots on its list, so what is taken off for one of them is
never more than there is (`Holds.charge_le`). They are within the budget but for the moment after an
entry was written, and then beyond it by no more than the entry, which fits the budget itself. So
with a budget of at most half of what a word holds every sum is a word, and all ways of counting
that are right for words (`Faithful`) come to the same: each operation on one slab does what it does
on numbers, each operation on two tiers does what it does on lists by recency (`Gives`), and
`bytes_never_wrap` is the induction over a sequence of uses.
-/

namespace ReadThrough

/-- Results that are words are right, and so are differences that are not below zero. -/
structure Arithmetic.Faithful (arithmetic : Arithmetic) : Prop where
  sum : ∀ m n, m + n < UInt64.size → arithmetic.sum m n = some (m + n)
  difference : ∀ m n, n ≤ m → m < UInt64.size → arithmetic.difference m n = some (m - n)

namespace Arithmetic

variable {arithmetic : Arithmetic} {key : String} {value : Value}

theorem faithful_unbounded : unbounded.Faithful where
  sum _ _ _ := rfl
  difference _ _ h _ := if_pos h

theorem faithful_checked : checked.Faithful where
  sum _ _ h := if_pos h
  difference _ _ h _ := if_pos h

theorem faithful_wrapping : wrapping.Faithful where
  sum m n h := by
    show some (UInt64.ofNat m + UInt64.ofNat n).toNat = some (m + n)
    rw [← UInt64.ofNat_add, UInt64.toNat_ofNat_of_lt' h]
  difference m n hle h := by
    have hm : (UInt64.ofNat m).toNat = m := UInt64.toNat_ofNat_of_lt' h
    have hn : (UInt64.ofNat n).toNat = n := UInt64.toNat_ofNat_of_lt' (Nat.lt_of_le_of_lt hle h)
    have hle' : UInt64.ofNat n ≤ UInt64.ofNat m := by
      rw [UInt64.le_iff_toNat_le, hm, hn]
      exact hle
    show some (UInt64.ofNat m - UInt64.ofNat n).toNat = some (m - n)
    rw [UInt64.toNat_sub_of_le _ _ hle', hm, hn]

/-- The size of an entry is computed right if it is a word. -/
theorem Faithful.entrySize (h : arithmetic.Faithful)
    (hsize : ReadThrough.entrySize key value < UInt64.size) :
    arithmetic.entrySize key value = some (ReadThrough.entrySize key value) := by
  rw [ReadThrough.entrySize] at hsize ⊢
  rw [Arithmetic.entrySize, h.sum _ _ (by omega), Option.bind_eq_bind, Option.bind_some,
    h.sum _ _ hsize]

end Arithmetic

/-- Writing an entry uses no more bytes than those in use before and its own. -/
theorem Recency.write_bytes_le (cache : Recency) (entry : Entry) :
    (cache.write entry).bytes ≤ cache.bytes + entry.size := by
  unfold write
  dsimp only
  split <;> omega

namespace Slab.Holds

variable {arithmetic : Arithmetic} {slab : Slab} {cache : Recency} {order : List Nat}
  {number : Nat}

/-- No slot is charged for more bytes than are in use. -/
theorem charge_le (h : slab.Holds cache order) (hexact : cache.Exact) (hmem : number ∈ order) :
    (slab.slotAt number).size ≤ slab.bytes := by
  have hentry : (slab.slotAt number).entry ∈ cache.entries := by
    rw [h.entries]
    exact List.mem_map_of_mem hmem
  have hcharge := Recency.charge_others hexact.distinct hentry
  have hcharged := h.charged number hmem
  have hbytes := h.bytes
  have hcounted := hexact.counted
  omega

variable (ha : arithmetic.Faithful)

include ha

theorem departBy (h : slab.Holds cache order) (hexact : cache.Exact)
    (hword : slab.bytes < UInt64.size) (hmem : number ∈ order) (reason : Reason) :
    slab.departBy arithmetic number reason = some (slab.depart number reason) := by
  have hslot := getElem?_slots (h.lt_size number hmem)
  simp only [Slab.departBy, Slab.depart, hslot,
    ha.difference _ _ (h.charge_le hexact hmem) hword]
  rfl

theorem getBy (h : slab.Holds cache order) (hexact : cache.Exact)
    (hword : slab.bytes < UInt64.size) (key : String) (now : Millis) :
    slab.getBy arithmetic key now = some (slab.get key now) := by
  unfold Slab.getBy Slab.get
  rcases h.find?_cases key with ⟨hnone, -, -⟩ | ⟨number, hmem, hsome, -, -⟩
  · rw [hnone]
  · rw [hsome]
    dsimp only
    split
    · rw [h.departBy ha hexact hword hmem]
      rfl
    · rfl

theorem removeBy (h : slab.Holds cache order) (hexact : cache.Exact)
    (hword : slab.bytes < UInt64.size) (key : String) :
    slab.removeBy arithmetic key = some (slab.remove key) := by
  unfold Slab.removeBy Slab.remove
  rcases h.find?_cases key with ⟨hnone, -, -⟩ | ⟨number, hmem, hsome, -, -⟩
  · rw [hnone]
  · rw [hsome]
    dsimp only
    rw [h.departBy ha hexact hword hmem]
    rfl

theorem evictOldestBy (h : slab.Holds cache order) (hexact : cache.Exact)
    (hword : slab.bytes < UInt64.size) :
    slab.evictOldestBy arithmetic = some slab.evictOldest := by
  have holdest : slab.oldest = order.head? := h.threaded.ends.1.1
  unfold Slab.evictOldestBy Slab.evictOldest
  cases order with
  | nil => rw [holdest, List.head?_nil]
  | cons number rest =>
      rw [holdest, List.head?_cons]
      dsimp only
      rw [h.departBy ha hexact hword List.mem_cons_self]
      rfl

theorem trimBy (h : slab.Holds cache order) (hexact : cache.Exact)
    (hword : slab.bytes < UInt64.size) (limit : Nat) :
    Slab.trimBy arithmetic limit slab = some (Slab.trim limit slab) := by
  -- an eviction takes the size of an entry off the bytes, so they stay a word
  induction limit generalizing slab cache order with
  | zero => rfl
  | succ limit ih =>
      obtain ⟨-, -, -, hevicted⟩ := h.evictOldest
      have hbelow := cache.evictOldest_below
      have hword' : slab.evictOldest.slab.bytes < UInt64.size := by
        have hbytes := hbelow.bytes
        rw [hevicted.bytes]
        rw [h.bytes] at hword
        omega
      simp only [Slab.trimBy, Slab.trim, h.evictOldestBy ha hexact hword,
        ih hevicted (hbelow.exact hexact) hword', Option.bind_eq_bind, Option.bind_some]
      split
      · rfl
      · split <;> rfl

/-- Writing an entry comes to no sum beyond a word if the bytes before and its size together are
one, though they may be beyond the budget. -/
theorem writeBy (h : slab.Holds cache order) (hexact : cache.Exact) (key : String) (value : Value)
    (hword : slab.bytes + entrySize key value < UInt64.size) :
    slab.writeBy arithmetic key value (entrySize key value) = some (slab.write key value) := by
  unfold Slab.writeBy Slab.write
  rcases h.find?_cases key with ⟨hnone, -, -⟩ | ⟨number, hmem, hsome, -, -⟩
  · let slot : Slot := { key, value, size := entrySize key value, older := none, newer := none }
    let taken := slab.allocate slot
    have hbytes : (taken.2.linkNewest taken.1).bytes = slab.bytes :=
      (Relinked.linkNewest taken.2 taken.1).bytes.trans (h.allocate slot).bytes
    rw [← hbytes] at hword
    rw [hnone]
    show (arithmetic.sum (taken.2.linkNewest taken.1).bytes (entrySize key value)).bind _ = _
    rw [ha.sum _ _ hword]
    rfl
  · have hle := h.charge_le hexact hmem
    rw [hsome]
    dsimp only
    rw [ha.difference _ _ hle (by omega), Option.bind_eq_bind, Option.bind_some,
      ha.sum _ _ (by omega)]
    rfl

theorem addBy (h : slab.Holds cache order) (hexact : cache.Exact)
    (hfits : cache.bytes ≤ cache.budget) (hbudget : cache.budget ≤ 2 ^ 63 - 1) (key : String)
    (value : Value) (hsize : entrySize key value < UInt64.size) :
    slab.addBy arithmetic key value = some (slab.add key value) := by
  have hhalf : 2 ^ 63 - 1 + (2 ^ 63 - 1) < UInt64.size := by decide
  have hbytes := h.bytes
  have hlimit := h.budget
  unfold Slab.addBy Slab.add
  rw [ha.entrySize hsize, Option.bind_eq_bind, Option.bind_some]
  split
  · rw [h.removeBy ha hexact (by omega)]
    rfl
  · next hroom =>
    obtain ⟨⟨written, hwritten⟩, -⟩ := h.write ⟨key, value⟩
    have hword : (slab.write key value).bytes < UInt64.size := by
      have hle := cache.write_bytes_le ⟨key, value⟩
      rw [hwritten.bytes]
      dsimp only [Entry.size] at hle
      omega
    rw [h.writeBy ha hexact key value (by omega), Option.bind_eq_bind, Option.bind_some,
      hwritten.trimBy ha (hexact.write ⟨key, value⟩) hword]
    rfl

end Slab.Holds

/-! ## Two tiers -/

namespace Tiered

/-- Where the shared budget is at most half of what a word holds, so is the allotment of each
tier. -/
theorem Sound.budgets_le {cache : Tiered} (h : cache.Sound)
    (hpolicy : cache.policy.cacheBytes ≤ 2 ^ 63 - 1) :
    cache.main.budget ≤ 2 ^ 63 - 1 ∧ cache.hot.budget ≤ 2 ^ 63 - 1 := by
  rw [h.mainBudget, h.hotBudget]
  exact ⟨hpolicy, Nat.le_trans (Nat.div_le_self _ _) hpolicy⟩

/-- Every use keeps a pair sound and within the shared budget. -/
theorem sound_use {cache : Tiered} (h : cache.Sound) (hwithin : cache.Within) (use : TieredUse) :
    (cache.use use).cache.policy = cache.policy ∧ (cache.use use).cache.Sound ∧
      (cache.use use).cache.Within := by
  cases use with
  | add key value tier => exact h.apply hwithin (.add key value tier)
  | get key now => exact h.apply hwithin (.get key now)
  | remove key => exact h.apply hwithin (.remove key)
  | clear => exact h.apply hwithin .clear
  | peek | tierOf | stats | totalBytes => exact ⟨rfl, h, hwithin⟩

end Tiered

namespace SlabPair

/-- Two tiers in linked slots hold what two lists by recency hold. -/
structure Holds (pair : SlabPair) (cache : Tiered) : Prop where
  policy : pair.policy = cache.policy
  main : ∃ order, pair.main.Holds cache.main order
  hot : ∃ order, pair.hot.Holds cache.hot order
  mainReads : pair.mainReads = cache.mainReads
  hotReads : pair.hotReads = cache.hotReads

/-- An operation on linked slots comes to an end, and does what the one on lists does. -/
def Gives {α : Type} (outcome : Option (Step α)) (step : Tiered.Step α) : Prop :=
  ∃ after, outcome = some ⟨step.result, after, step.departures⟩ ∧ after.Holds step.cache

theorem Gives.map {α β : Type} {outcome : Option (Step α)} {step : Tiered.Step α}
    (h : Gives outcome step) (answer : α → β) :
    Gives (do
      let found ← outcome
      pure ⟨answer found.result, found.pair, found.departures⟩)
      ⟨answer step.result, step.cache, step.departures⟩ := by
  obtain ⟨after, rfl, hholds⟩ := h
  exact ⟨after, rfl, hholds⟩

theorem holds_empty (policy : TierPolicy) : Holds (empty policy) (.empty policy) :=
  ⟨rfl, ⟨[], Slab.holds_empty _⟩, ⟨[], Slab.holds_empty _⟩, rfl, rfl⟩

namespace Holds

variable {arithmetic : Arithmetic} {pair : SlabPair} {cache : Tiered}

theorem peek (h : pair.Holds cache) (key : String) (now : Millis) :
    pair.peek key now = cache.peek key now := by
  obtain ⟨_, hmain⟩ := h.main
  obtain ⟨_, hhot⟩ := h.hot
  rewrite [SlabPair.peek, Tiered.peek, h.policy, hmain.peek, hhot.peek]
  rfl

theorem tierOf (h : pair.Holds cache) (key : String) (now : Millis) :
    pair.tierOf key now = cache.tierOf key now := by
  obtain ⟨_, hmain⟩ := h.main
  obtain ⟨_, hhot⟩ := h.hot
  rewrite [SlabPair.tierOf, Tiered.tierOf, Slab.contains, Slab.contains, hmain.peek, hhot.peek]
  rfl

theorem stats (h : pair.Holds cache) (tier : Tier) : pair.stats tier = cache.stats tier := by
  obtain ⟨_, hmain⟩ := h.main
  obtain ⟨_, hhot⟩ := h.hot
  cases tier with
  | main =>
      simp only [SlabPair.stats, Tiered.stats, hmain.bytes, hmain.budget, hmain.slab_size,
        hmain.evictions, h.mainReads]
  | hot =>
      simp only [SlabPair.stats, Tiered.stats, hhot.bytes, hhot.budget, hhot.slab_size,
        hhot.evictions, h.hotReads]

theorem clear (h : pair.Holds cache) : pair.clear.Holds cache.clear := by
  obtain ⟨_, hmain⟩ := h.main
  obtain ⟨_, hhot⟩ := h.hot
  exact ⟨h.policy, ⟨_, hmain.clear⟩, ⟨_, hhot.clear⟩, h.mainReads, h.hotReads⟩

/-- The bytes of both tiers together are a word. -/
theorem bytes_lt (h : pair.Holds cache) (hsound : cache.Sound)
    (hpolicy : cache.policy.cacheBytes ≤ 2 ^ 63 - 1) :
    pair.main.bytes + pair.hot.bytes < UInt64.size := by
  obtain ⟨_, hmain⟩ := h.main
  obtain ⟨_, hhot⟩ := h.hot
  have hhalf : 2 ^ 63 - 1 + (2 ^ 63 - 1) < UInt64.size := by decide
  have hbudgets := hsound.budgets_le hpolicy
  have hfits := hsound.mainFits
  have hfits' := hsound.hotFits
  rw [hmain.bytes, hhot.bytes]
  omega

variable (ha : arithmetic.Faithful)

include ha

theorem totalBytesBy (h : pair.Holds cache) (hsound : cache.Sound)
    (hpolicy : cache.policy.cacheBytes ≤ 2 ^ 63 - 1) :
    pair.totalBytesBy arithmetic = some cache.totalBytes := by
  obtain ⟨_, hmain⟩ := h.main
  obtain ⟨_, hhot⟩ := h.hot
  rw [SlabPair.totalBytesBy, ha.sum _ _ (h.bytes_lt hsound hpolicy), hmain.bytes, hhot.bytes]
  rfl

theorem getBy (h : pair.Holds cache) (hsound : cache.Sound)
    (hpolicy : cache.policy.cacheBytes ≤ 2 ^ 63 - 1) (key : String) (now : Millis) :
    Gives (pair.getBy arithmetic key now) (cache.get key now) := by
  have hword := h.bytes_lt hsound hpolicy
  obtain ⟨_, hmain⟩ := h.main
  obtain ⟨_, hhot⟩ := h.hot
  unfold SlabPair.getBy Tiered.get
  rw [h.policy]
  split
  · exact ⟨pair, rfl, h⟩
  · obtain ⟨hresult, hdepartures, -, hafter⟩ := hmain.get key now
    rw [hmain.getBy ha hsound.mainExact (by omega)]
    simp only [Option.bind_eq_bind, Option.bind_some, hresult, hdepartures]
    cases (cache.main.get key now).result with
    | some value =>
        exact ⟨_, rfl, rfl, hafter, h.hot, congrArg TierReads.hit h.mainReads, h.hotReads⟩
    | none =>
        obtain ⟨hresult', hdepartures', -, hafter'⟩ := hhot.get key now
        rw [hhot.getBy ha hsound.hotExact (by omega)]
        simp only [Option.bind_some, hresult', hdepartures']
        refine ⟨_, rfl, rfl, hafter, hafter', congrArg TierReads.miss h.mainReads, ?_⟩
        dsimp only
        rw [h.hotReads]

theorem removeBy (h : pair.Holds cache) (hsound : cache.Sound)
    (hpolicy : cache.policy.cacheBytes ≤ 2 ^ 63 - 1) (key : String) :
    Gives (pair.removeBy arithmetic key) (cache.remove key) := by
  have hword := h.bytes_lt hsound hpolicy
  obtain ⟨_, hmain⟩ := h.main
  obtain ⟨_, hhot⟩ := h.hot
  obtain ⟨hresult, hdepartures, -, hafter⟩ := hmain.remove key
  obtain ⟨hresult', hdepartures', -, hafter'⟩ := hhot.remove key
  unfold SlabPair.removeBy Tiered.remove
  rw [hmain.removeBy ha hsound.mainExact (by omega), hhot.removeBy ha hsound.hotExact (by omega)]
  simp only [Option.bind_eq_bind, Option.bind_some, hresult, hdepartures, hresult', hdepartures']
  exact ⟨_, rfl, h.policy, hafter, hafter', h.mainReads, h.hotReads⟩

/-- Both sides take the entry that gives way from the same tier. -/
theorem giveWayBy (h : pair.Holds cache) (hsound : cache.Sound)
    (hpolicy : cache.policy.cacheBytes ≤ 2 ^ 63 - 1) :
    ∃ after, pair.giveWayBy arithmetic =
        some ⟨cache.giveWay.result.isSome, after, cache.giveWay.departures⟩ ∧
      after.Holds cache.giveWay.cache := by
  have hword := h.bytes_lt hsound hpolicy
  obtain ⟨_, hmain⟩ := h.main
  obtain ⟨_, hhot⟩ := h.hot
  unfold SlabPair.giveWayBy Tiered.giveWay
  rw [h.policy, hmain.bytes, hhot.bytes]
  split
  · obtain ⟨hresult, hdepartures, -, hafter⟩ := hhot.evictOldest
    rw [hhot.evictOldestBy ha hsound.hotExact (by omega)]
    simp only [Option.bind_eq_bind, Option.bind_some, hresult, hdepartures, Option.isSome_map]
    exact ⟨_, rfl, rfl, h.main, ⟨_, hafter⟩, h.mainReads, h.hotReads⟩
  · obtain ⟨hresult, hdepartures, -, hafter⟩ := hmain.evictOldest
    rw [hmain.evictOldestBy ha hsound.mainExact (by omega)]
    simp only [Option.bind_eq_bind, Option.bind_some, hresult, hdepartures, Option.isSome_map]
    exact ⟨_, rfl, rfl, ⟨_, hafter⟩, h.hot, h.mainReads, h.hotReads⟩

/-- Balancing looks at the bytes of a sound pair each time, and at most once more than there are
entries. -/
theorem balanceBy (h : pair.Holds cache) (hsound : cache.Sound)
    (hpolicy : cache.policy.cacheBytes ≤ 2 ^ 63 - 1) {limit : Nat} (hlimit : cache.size < limit) :
    Gives (SlabPair.balanceBy arithmetic limit pair) cache.balance := by
  induction limit generalizing pair cache with
  | zero => cases hlimit
  | succ limit ih =>
      rw [SlabPair.balanceBy, h.totalBytesBy ha hsound hpolicy, Option.bind_eq_bind,
        Option.bind_some, Tiered.balance, h.policy, Tiered.totalBytes]
      split
      · exact ⟨pair, rfl, h⟩
      · obtain ⟨after, hgives, hafter⟩ := h.giveWayBy ha hsound hpolicy
        rw [hgives, Option.bind_eq_bind, Option.bind_some]
        dsimp only
        by_cases hsome : cache.giveWay.result.isSome = true
        · have hbelow := cache.giveWay_below
          have hless := cache.size_giveWay hsome
          obtain ⟨last, hlast, hholds⟩ := ih hafter (hbelow.sound hsound)
            (hbelow.policy ▸ hpolicy) (Nat.lt_of_lt_of_le hless (Nat.le_of_lt_succ hlimit))
          rw [if_pos hsome, dif_pos hsome, hlast]
          exact ⟨last, rfl, hholds⟩
        · rw [if_neg hsome, dif_neg hsome]
          exact ⟨pair, rfl, h⟩

theorem placeBy (h : pair.Holds cache) (hsound : cache.Sound)
    (hpolicy : cache.policy.cacheBytes ≤ 2 ^ 63 - 1) (key : String) (value : Value) (tier : Tier)
    (hsize : entrySize key value < UInt64.size) :
    Gives (pair.placeBy arithmetic key value tier) (cache.place key value tier) := by
  have hword := h.bytes_lt hsound hpolicy
  obtain ⟨hmainBudget, hhotBudget⟩ := hsound.budgets_le hpolicy
  obtain ⟨_, hmain⟩ := h.main
  obtain ⟨_, hhot⟩ := h.hot
  unfold SlabPair.placeBy Tiered.place
  cases tier with
  | main =>
      obtain ⟨-, hdepartures, -, hmoved⟩ := hhot.remove key
      obtain ⟨hresult, hdepartures', -, hstored⟩ := hmain.add key value
      dsimp only
      rw [hhot.removeBy ha hsound.hotExact (by omega),
        hmain.addBy ha hsound.mainExact hsound.mainFits hmainBudget key value hsize]
      simp only [Option.bind_eq_bind, Option.bind_some, hresult, hdepartures, hdepartures']
      exact ⟨_, rfl, h.policy, hstored, hmoved, h.mainReads, h.hotReads⟩
  | hot =>
      obtain ⟨-, hdepartures, -, hmoved⟩ := hmain.remove key
      obtain ⟨hresult, hdepartures', -, hstored⟩ := hhot.add key value
      dsimp only
      rw [hmain.removeBy ha hsound.mainExact (by omega),
        hhot.addBy ha hsound.hotExact hsound.hotFits hhotBudget key value hsize]
      simp only [Option.bind_eq_bind, Option.bind_some, hresult, hdepartures, hdepartures']
      exact ⟨_, rfl, h.policy, hmoved, hstored, h.mainReads, h.hotReads⟩

theorem addBy (h : pair.Holds cache) (hsound : cache.Sound)
    (hpolicy : cache.policy.cacheBytes ≤ 2 ^ 63 - 1) (key : String) (value : Value) (tier : Tier)
    (hsize : entrySize key value < UInt64.size) :
    Gives (pair.addBy arithmetic key value tier) (cache.add key value tier) := by
  unfold SlabPair.addBy Tiered.add
  rw [h.policy]
  split
  · exact ⟨pair, rfl, h⟩
  · obtain ⟨placed, hplaced, hholds⟩ := h.placeBy ha hsound hpolicy key value tier hsize
    have hsound' := hsound.place key value tier
    have hpolicy' : (cache.place key value tier).cache.policy.cacheBytes ≤ 2 ^ 63 - 1 := by
      rw [Tiered.place_policy]
      exact hpolicy
    have hlimit : (cache.place key value tier).cache.size <
        placed.main.size + placed.hot.size + 1 := by
      obtain ⟨_, hmain⟩ := hholds.main
      obtain ⟨_, hhot⟩ := hholds.hot
      rw [hmain.slab_size, hhot.slab_size]
      exact Nat.lt_succ_self _
    obtain ⟨last, hlast, hend⟩ := hholds.balanceBy ha hsound' hpolicy' hlimit
    rw [hplaced, Option.bind_eq_bind, Option.bind_some]
    dsimp only
    rw [hlast]
    exact ⟨last, rfl, hend⟩

/-- One use comes to an end, whichever way bytes are counted, and is answered as on lists. -/
theorem useBy (h : pair.Holds cache) (hsound : cache.Sound)
    (hpolicy : cache.policy.cacheBytes ≤ 2 ^ 63 - 1) (use : TieredUse)
    (hsize : ∀ key value tier, use = .add key value tier → entrySize key value < UInt64.size) :
    Gives (pair.useBy arithmetic use) (cache.use use) := by
  cases use with
  | add key value tier =>
      have hword := hsize key value tier rfl
      exact (h.addBy ha hsound hpolicy key value tier hword).map TieredAnswer.told
  | get key now => exact (h.getBy ha hsound hpolicy key now).map TieredAnswer.found
  | remove key => exact (h.removeBy ha hsound hpolicy key).map TieredAnswer.told
  | clear => exact ⟨pair.clear, rfl, h.clear⟩
  | peek key now => exact ⟨pair, by rw [SlabPair.useBy, h.peek]; rfl, h⟩
  | tierOf key now => exact ⟨pair, by rw [SlabPair.useBy, h.tierOf]; rfl, h⟩
  | stats tier => exact ⟨pair, by rw [SlabPair.useBy, h.stats]; rfl, h⟩
  | totalBytes =>
      refine ⟨pair, ?_, h⟩
      rw [SlabPair.useBy, h.totalBytesBy ha hsound hpolicy]
      rfl

theorem viewsBy (h : pair.Holds cache) (hsound : cache.Sound) (hwithin : cache.Within)
    (hpolicy : cache.policy.cacheBytes ≤ 2 ^ 63 - 1) (uses : List TieredUse)
    (hsizes : ∀ key value tier, .add key value tier ∈ uses →
      entrySize key value < UInt64.size) :
    pair.viewsBy arithmetic uses = some (cache.views uses) := by
  induction uses generalizing pair cache with
  | nil => rfl
  | cons use rest ih =>
      obtain ⟨after, hafter, hholds⟩ := h.useBy ha hsound hpolicy use fun key value tier heq ↦
        hsizes key value tier (heq ▸ List.mem_cons_self)
      obtain ⟨hpolicy', hsound', hwithin'⟩ := Tiered.sound_use hsound hwithin use
      have hrest := ih hholds hsound' hwithin' (hpolicy'.symm ▸ hpolicy) fun key value tier hmem ↦
        hsizes key value tier (List.mem_cons_of_mem _ hmem)
      rw [SlabPair.viewsBy, hafter, Option.bind_eq_bind, Option.bind_some, hrest]
      rfl

end Holds

/-- Bytes never wrap around. With a shared budget of at most half of what a word holds, and entries
of which the size is a word, a program that would end at a sum beyond a word or a difference below
zero comes to an end of every sequence of uses, and so answers what one with words that wrap around
answers, and one with numbers of any size. -/
theorem bytes_never_wrap (policy : TierPolicy) (uses : List TieredUse)
    (hpolicy : policy.cacheBytes ≤ 2 ^ 63 - 1)
    (hsizes : ∀ key value tier, .add key value tier ∈ uses →
      entrySize key value < UInt64.size) :
    (empty policy).viewsBy .checked uses = some ((Tiered.empty policy).views uses) ∧
    (empty policy).viewsBy .wrapping uses = some ((Tiered.empty policy).views uses) ∧
    (empty policy).viewsBy .unbounded uses = some ((Tiered.empty policy).views uses) := by
  have hviews {arithmetic : Arithmetic} (ha : arithmetic.Faithful) :
      (empty policy).viewsBy arithmetic uses = some ((Tiered.empty policy).views uses) :=
    (holds_empty policy).viewsBy ha (Tiered.sound_empty policy) (Nat.zero_le _) hpolicy uses hsizes
  exact ⟨hviews Arithmetic.faithful_checked, hviews Arithmetic.faithful_wrapping,
    hviews Arithmetic.faithful_unbounded⟩

/-- Three entries of 33 bytes within a budget of 100, a fourth one for which one of them is evicted,
a larger value for the last one, a read that finds an expired entry, and a removal. -/
def crowding : List TieredUse :=
  [.add "a" (.lasting .empty) .main, .add "b" (.lasting .empty) .hot,
    .add "c" ⟨.empty, some 5⟩ .main, .add "d" (.lasting .empty) .main, .totalBytes,
    .add "d" (.lasting "v".toUTF8) .main, .get "c" 5, .remove "b", .totalBytes]

/-- The fourth entry takes the bytes of the pair to 132, and the oldest one is evicted. -/
theorem bytes_never_wrap_crowding :
    ∃ views, (empty ⟨100, 2⟩).viewsBy .checked crowding = some views ∧
      (empty ⟨100, 2⟩).viewsBy .wrapping crowding = some views ∧
      views = [(.told true, []), (.told true, []), (.told true, []),
        (.told true, [⟨"a", .lasting .empty, .evicted⟩]), (.used 99, []), (.told true, []),
        (.found none, [⟨"c", ⟨.empty, some 5⟩, .expired⟩]),
        (.told true, [⟨"b", .lasting .empty, .removed⟩]), (.used 34, [])] := by
  have hsizes (key : String) (value : Value) (tier : Tier)
      (hmem : .add key value tier ∈ crowding) : entrySize key value < UInt64.size := by
    simp only [crowding, List.mem_cons, TieredUse.add.injEq, reduceCtorEq, false_or, or_false,
      List.not_mem_nil] at hmem
    rcases hmem with ⟨rfl, rfl, -⟩ | ⟨rfl, rfl, -⟩ | ⟨rfl, rfl, -⟩ | ⟨rfl, rfl, -⟩ |
      ⟨rfl, rfl, -⟩ <;> decide +kernel
  obtain ⟨hchecked, hwrapping, -⟩ := bytes_never_wrap ⟨100, 2⟩ crowding (by decide) hsizes
  exact ⟨_, hchecked, hwrapping, by decide +kernel⟩

end SlabPair

end ReadThrough
