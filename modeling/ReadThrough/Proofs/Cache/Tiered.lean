import ReadThrough.Cache.Tiered
import ReadThrough.Proofs.Cache.Recency

/-!
# The shared budget of two tiers

The main statement is `budget_kept`: after every sequence of operations each tier is within its
allotment and the pair within the shared budget, the bytes are counted right and no key is held
twice, and while a store balances the pair, the tier that has to give way is never empty.
-/

namespace ReadThrough.Tiered

/-- What holds of a pair at all times, also while it is balanced. -/
structure Sound (cache : Tiered) : Prop where
  mainBudget : cache.main.budget = cache.policy.mainBytes
  hotBudget : cache.hot.budget = cache.policy.hotBytes
  mainExact : cache.main.Exact
  hotExact : cache.hot.Exact
  mainFits : cache.main.bytes ≤ cache.main.budget
  hotFits : cache.hot.bytes ≤ cache.hot.budget
  apart : ∀ entry ∈ cache.main.entries, ∀ other ∈ cache.hot.entries, entry.key ≠ other.key

/-- The pair is within the shared budget. -/
def Within (cache : Tiered) : Prop :=
  cache.main.bytes + cache.hot.bytes ≤ cache.policy.cacheBytes

theorem sound_empty (policy : TierPolicy) : Sound (empty policy) where
  mainBudget := rfl
  hotBudget := rfl
  mainExact := Recency.exact_empty _
  hotExact := Recency.exact_empty _
  mainFits := Nat.zero_le _
  hotFits := Nat.zero_le _
  apart := fun _ h ↦ absurd h List.not_mem_nil

/-- A pair of which each tier is below that of another pair. -/
structure Below (after cache : Tiered) : Prop where
  policy : after.policy = cache.policy
  main : after.main.Below cache.main
  hot : after.hot.Below cache.hot

namespace Below

theorem refl (cache : Tiered) : Below cache cache :=
  ⟨rfl, .refl _, .refl _⟩

theorem trans {first second third : Tiered} (h : Below first second) (h' : Below second third) :
    Below first third :=
  ⟨h.policy.trans h'.policy, h.main.trans h'.main, h.hot.trans h'.hot⟩

/-- A pair below a sound one is sound. -/
theorem sound {after cache : Tiered} (h : Below after cache) (hsound : cache.Sound) :
    after.Sound where
  mainBudget := by rw [h.main.budget, h.policy, hsound.mainBudget]
  hotBudget := by rw [h.hot.budget, h.policy, hsound.hotBudget]
  mainExact := h.main.exact hsound.mainExact
  hotExact := h.hot.exact hsound.hotExact
  mainFits := by
    rw [h.main.budget]
    exact Nat.le_trans h.main.bytes hsound.mainFits
  hotFits := by
    rw [h.hot.budget]
    exact Nat.le_trans h.hot.bytes hsound.hotFits
  apart := fun entry hentry other hother ↦
    hsound.apart entry (h.main.entries entry hentry) other (h.hot.entries other hother)

/-- A pair below one within the shared budget is within it. -/
theorem within {after cache : Tiered} (h : Below after cache) (hwithin : cache.Within) :
    after.Within := by
  unfold Within at hwithin ⊢
  rw [h.policy]
  have := h.main.bytes
  have := h.hot.bytes
  omega

end Below

/-! ## Reading and taking out -/

theorem get_below (cache : Tiered) (key : String) (now : Millis) :
    Below (cache.get key now).cache cache := by
  unfold get
  split
  · exact .refl cache
  · dsimp only
    split
    · exact ⟨rfl, cache.main.get_below key now, .refl _⟩
    · exact ⟨rfl, cache.main.get_below key now, cache.hot.get_below key now⟩

theorem remove_below (cache : Tiered) (key : String) : Below (cache.remove key).cache cache :=
  ⟨rfl, cache.main.remove_below key, cache.hot.remove_below key⟩

theorem clear_below (cache : Tiered) : Below cache.clear cache :=
  ⟨rfl, cache.main.clear_below, cache.hot.clear_below⟩

/-! ## Contents -/

/-- A tier holds a value for a key, expired or not. -/
def Holds (cache : Tiered) (key : String) (value : Value) : Prop :=
  ⟨key, value⟩ ∈ cache.main.entries ∨ ⟨key, value⟩ ∈ cache.hot.entries

theorem not_holds_empty (policy : TierPolicy) (key : String) (value : Value) :
    ¬(empty policy).Holds key value := by
  simp [Holds, empty, Recency.empty]

/-- A pair below another one holds nothing else. -/
theorem Below.holds {after cache : Tiered} (h : Below after cache) {key : String}
    {value : Value} (hholds : after.Holds key value) : cache.Holds key value :=
  hholds.imp (h.main.entries _) (h.hot.entries _)

/-- What is read without touching anything is held for the key. -/
theorem holds_of_peek {cache : Tiered} {key : String} {now : Millis} {value : Value} {tier : Tier}
    (h : cache.peek key now = some (value, tier)) : cache.Holds key value := by
  unfold peek at h
  split at h
  · cases h
  · split at h
    · next found hmain =>
      cases h
      exact .inl (Recency.mem_of_peek hmain)
    · obtain ⟨found, hfound, heq⟩ := Option.map_eq_some_iff.1 h
      cases heq
      exact .inr (Recency.mem_of_peek hfound)

/-- A read answers what is seen without one, and names the same tier. -/
theorem get_result (cache : Tiered) (key : String) (now : Millis) :
    (cache.get key now).result = cache.peek key now := by
  unfold get peek
  split
  · rfl
  · dsimp only
    rw [Recency.get_result, Recency.get_result]
    split <;> rfl

/-- What is read is held for the key. -/
theorem holds_of_get {cache : Tiered} {key : String} {now : Millis} {value : Value} {tier : Tier}
    (h : (cache.get key now).result = some (value, tier)) : cache.Holds key value :=
  holds_of_peek (cache.get_result key now ▸ h)

/-! ## Balancing -/

theorem giveWay_below (cache : Tiered) : Below cache.giveWay.cache cache := by
  unfold giveWay
  split
  · exact ⟨rfl, .refl _, cache.hot.evictOldest_below⟩
  · exact ⟨rfl, cache.main.evictOldest_below, .refl _⟩

/-- A pair over the shared budget has an entry where it has to give way: a hot tier over its share
is in use, and one within its share leaves the excess to the main tier. -/
theorem isSome_giveWay {cache : Tiered} (h : cache.Sound) (hover : ¬cache.Within) :
    cache.giveWay.result.isSome := by
  unfold giveWay
  split
  · next hshare =>
    have hused : cache.main.bytes / cache.policy.divisor < cache.hot.bytes := by
      simpa [TierPolicy.hotIsOverShare] using hshare
    exact Recency.isSome_evictOldest h.hotExact (Nat.zero_lt_of_lt hused)
  · next hshare =>
    have hspared : cache.hot.bytes ≤ cache.main.bytes / cache.policy.divisor := by
      simpa [TierPolicy.hotIsOverShare] using hshare
    -- an empty main tier has no share to spare, so the hot tier would be empty as well
    refine Recency.isSome_evictOldest h.mainExact (Nat.pos_of_ne_zero ?_)
    intro hunused
    rw [hunused, Nat.zero_div] at hspared
    apply hover
    unfold Within
    omega

/-- The pairs that balancing goes through: as long as a pair is over the shared budget, an entry
gives way. -/
inductive Balancing (start : Tiered) : Tiered → Prop where
  | here : Balancing start start
  | next {cache : Tiered} : Balancing start cache → ¬cache.Within →
      cache.giveWay.result.isSome → Balancing start cache.giveWay.cache

theorem Below.of_balancing {start cache : Tiered} (h : Balancing start cache) :
    Below cache start := by
  induction h with
  | here => exact .refl start
  | next _ _ _ ih => exact (giveWay_below _).trans ih

/-- Balancing goes on from whatever it has come to. -/
theorem Balancing.trans {first second third : Tiered} (h : Balancing first second)
    (h' : Balancing second third) : Balancing first third := by
  induction h' with
  | here => exact h
  | next _ hover hsome ih => exact .next ih hover hsome

/-- Balancing a sound pair goes through to one within the shared budget. -/
theorem balance_balancing {cache : Tiered} (h : cache.Sound) :
    Balancing cache cache.balance.cache ∧ cache.balance.cache.Within := by
  induction cache using balance.induct with
  | case1 cache hwithin =>
      rw [balance, if_pos hwithin]
      exact ⟨.here, hwithin⟩
  | case2 cache hover victim hsome ih =>
      obtain ⟨hrest, hend⟩ := ih ((giveWay_below cache).sound h)
      rw [balance, if_neg hover]
      simp only [victim, hsome, dite_true] at hrest hend ⊢
      exact ⟨(Balancing.here.next hover hsome).trans hrest, hend⟩
  | case3 cache hover victim hnone =>
      -- the break of the loop
      exact absurd (isSome_giveWay h hover) hnone

/-- Balancing a pair leaves one below it. -/
theorem balance_below (cache : Tiered) : Below cache.balance.cache cache := by
  induction cache using balance.induct with
  | case1 cache hwithin =>
      rw [balance, if_pos hwithin]
      exact .refl cache
  | case2 cache hover victim hsome ih =>
      rw [balance, if_neg hover]
      simp only [victim, hsome, dite_true] at ih ⊢
      exact ih.trans (giveWay_below cache)
  | case3 cache hover victim hnone =>
      rw [balance, if_neg hover]
      simp only [victim] at hnone
      simp only [hnone]
      exact .refl cache

/-! ## Storing -/

@[simp] theorem place_policy (cache : Tiered) (key : String) (value : Value) (tier : Tier) :
    (cache.place key value tier).cache.policy = cache.policy := by
  cases tier <;> rfl

/-- A pair is sound just after a value was placed. -/
theorem Sound.place {cache : Tiered} (h : cache.Sound) (key : String) (value : Value)
    (tier : Tier) : (cache.place key value tier).cache.Sound := by
  cases tier with
  | main =>
      obtain ⟨hexact, hfits⟩ := h.mainExact.add h.mainFits key value
      have hmoved := cache.hot.remove_below key
      refine ⟨?_, ?_, hexact, hmoved.exact h.hotExact, ?_, ?_, ?_⟩
      · exact (Recency.add_budget _ _ _).trans h.mainBudget
      · exact hmoved.budget.trans h.hotBudget
      · exact Nat.le_trans hfits (Nat.le_of_eq (Recency.add_budget _ _ _).symm)
      · exact Nat.le_trans hmoved.bytes (Nat.le_trans h.hotFits (Nat.le_of_eq hmoved.budget.symm))
      · intro entry hentry other hother
        rcases Recency.mem_add hentry with ⟨hold, -⟩ | rfl
        · exact h.apart entry hold other (hmoved.entries other hother)
        · exact (Recency.ne_of_mem_remove hother).symm
  | hot =>
      obtain ⟨hexact, hfits⟩ := h.hotExact.add h.hotFits key value
      have hmoved := cache.main.remove_below key
      refine ⟨?_, ?_, hmoved.exact h.mainExact, hexact, ?_, ?_, ?_⟩
      · exact hmoved.budget.trans h.mainBudget
      · exact (Recency.add_budget _ _ _).trans h.hotBudget
      · exact Nat.le_trans hmoved.bytes (Nat.le_trans h.mainFits (Nat.le_of_eq hmoved.budget.symm))
      · exact Nat.le_trans hfits (Nat.le_of_eq (Recency.add_budget _ _ _).symm)
      · intro entry hentry other hother
        rcases Recency.mem_add hother with ⟨hold, -⟩ | rfl
        · exact h.apart entry (hmoved.entries entry hentry) other hold
        · exact Recency.ne_of_mem_remove hentry

/-- Storing leaves the new value and values that were held before. -/
theorem holds_of_add {cache : Tiered} {key other : String} {value held : Value} {tier : Tier}
    (h : (cache.add key value tier).cache.Holds other held) :
    cache.Holds other held ∨ other = key ∧ held = value := by
  unfold add at h
  split at h
  · exact .inl h
  · have hplaced := (balance_below _).holds h
    cases tier with
    | main =>
        rcases hplaced with hmain | hhot
        · rcases Recency.mem_add hmain with ⟨hold, -⟩ | hnew
          · exact .inl (.inl hold)
          · cases hnew
            exact .inr ⟨rfl, rfl⟩
        · exact .inl (.inr ((cache.hot.remove_below key).entries _ hhot))
    | hot =>
        rcases hplaced with hmain | hhot
        · exact .inl (.inl ((cache.main.remove_below key).entries _ hmain))
        · rcases Recency.mem_add hhot with ⟨hold, -⟩ | hnew
          · exact .inl (.inr hold)
          · cases hnew
            exact .inr ⟨rfl, rfl⟩

/-- Every operation keeps a pair sound and within the shared budget. -/
theorem Sound.apply {cache : Tiered} (h : cache.Sound) (hwithin : cache.Within)
    (operation : Operation) :
    (cache.apply operation).policy = cache.policy ∧ (cache.apply operation).Sound ∧
      (cache.apply operation).Within := by
  have hbelow : ∀ {after : Tiered}, Below after cache →
      after.policy = cache.policy ∧ after.Sound ∧ after.Within :=
    fun hbelow ↦ ⟨hbelow.policy, hbelow.sound h, hbelow.within hwithin⟩
  cases operation with
  | add key value tier =>
      simp only [Tiered.apply, add]
      by_cases hzero : cache.policy.cacheBytes = 0
      · rw [if_pos hzero]
        exact hbelow (.refl cache)
      · rw [if_neg hzero]
        have hplaced := h.place key value tier
        obtain ⟨hbalancing, hend⟩ := balance_balancing hplaced
        have hbalanced := Below.of_balancing hbalancing
        exact ⟨hbalanced.policy.trans (place_policy _ _ _ _), hbalanced.sound hplaced, hend⟩
  | get key now => exact hbelow (cache.get_below key now)
  | peek => exact hbelow (.refl cache)
  | remove key => exact hbelow (cache.remove_below key)
  | clear => exact hbelow cache.clear_below

/-- What holds of a pair after every sequence of operations. -/
theorem sound_foldl (operations : List Operation) {cache : Tiered} (h : cache.Sound)
    (hwithin : cache.Within) :
    (operations.foldl Tiered.apply cache).policy = cache.policy ∧
      (operations.foldl Tiered.apply cache).Sound ∧
      (operations.foldl Tiered.apply cache).Within := by
  induction operations generalizing cache with
  | nil => exact ⟨rfl, h, hwithin⟩
  | cons operation rest ih =>
      obtain ⟨hpolicy, hsound, hwithin'⟩ := h.apply hwithin operation
      obtain ⟨hpolicy', hrest⟩ := ih hsound hwithin'
      exact ⟨hpolicy'.trans hpolicy, hrest⟩

/-- The shared budget is kept: after every sequence of operations on an empty pair, each tier is
within its allotment and the pair within the budget, the bytes are those of the entries, and no key
is held by both tiers. When a value is stored next, the pair that is balanced comes to be within
the budget, and as long as it is not, the tier that has to give way holds an entry. -/
theorem budget_kept (policy : TierPolicy) (operations : List Operation) :
    let cache := operations.foldl Tiered.apply (empty policy)
    cache.main.bytes ≤ policy.cacheBytes ∧
    cache.hot.bytes ≤ policy.cacheBytes / max policy.hotRatio 1 ∧
    cache.main.bytes + cache.hot.bytes ≤ policy.cacheBytes ∧
    cache.main.bytes = (cache.main.entries.map Entry.size).sum ∧
    cache.hot.bytes = (cache.hot.entries.map Entry.size).sum ∧
    (∀ key, ¬(key ∈ cache.main.keys ∧ key ∈ cache.hot.keys)) ∧
    ∀ key value tier, let placed := (cache.place key value tier).cache
      (Balancing placed placed.balance.cache ∧ placed.balance.cache.Within) ∧
      ∀ during, Balancing placed during → ¬during.Within → during.giveWay.result.isSome := by
  intro cache
  obtain ⟨hpolicy, hsound, hwithin⟩ :=
    sound_foldl operations (sound_empty policy) (Nat.zero_le policy.cacheBytes)
  have hmain : cache.main.budget = policy.cacheBytes := by
    rw [hsound.mainBudget, hpolicy]
    rfl
  have hhot : cache.hot.budget = policy.cacheBytes / max policy.hotRatio 1 := by
    rw [hsound.hotBudget, hpolicy]
    rfl
  refine ⟨hmain ▸ hsound.mainFits, hhot ▸ hsound.hotFits, ?_, hsound.mainExact.counted,
    hsound.hotExact.counted, ?_, ?_⟩
  · unfold Within at hwithin
    rw [hpolicy] at hwithin
    exact hwithin
  · rintro key ⟨hkey, hkey'⟩
    obtain ⟨entry, hentry, rfl⟩ := List.mem_map.1 hkey
    obtain ⟨other, hother, heq⟩ := List.mem_map.1 hkey'
    exact hsound.apart entry hentry other hother heq.symm
  · intro key value tier placed
    have hplaced : placed.Sound := hsound.place key value tier
    refine ⟨balance_balancing hplaced, ?_⟩
    intro during hduring hover
    exact isSome_giveWay ((Below.of_balancing hduring).sound hplaced) hover

/-- Two entries of 33 bytes in the main tier leave too little of 70 bytes for a third one in the hot
tier. -/
def full : Tiered :=
  [.add "a" (.lasting .empty) .main, .add "b" (.lasting .empty) .main].foldl Tiered.apply
    (empty ⟨70, 1⟩)

/-- Once the third entry is placed the pair is over its budget, and an entry gives way. -/
theorem budget_kept_full :
    let placed := (full.place "c" (.lasting .empty) .hot).cache
    ¬placed.Within ∧ placed.giveWay.result.isSome ∧ placed.balance.cache.Within := by
  intro placed
  have hover : ¬placed.Within := by
    unfold Within
    decide +kernel
  obtain ⟨-, -, -, -, -, -, hplaced⟩ := budget_kept ⟨70, 1⟩
    [.add "a" (.lasting .empty) .main, .add "b" (.lasting .empty) .main]
  obtain ⟨⟨-, hwithin⟩, hgives⟩ := hplaced "c" (.lasting .empty) .hot
  exact ⟨hover, hgives placed .here hover, hwithin⟩

end ReadThrough.Tiered
