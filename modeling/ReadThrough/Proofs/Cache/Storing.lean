import ReadThrough.Proofs.Cache.Eviction
import ReadThrough.Proofs.Cache.Live

/-!
# What a store leaves

A value that fits the allotment of its tier is placed, and then the pair is balanced. Balancing
takes from the tier that holds too much for the other one, oldest entry first, and the value itself
may be all that this tier has left. `Squeezed` says from what was there before when this happens,
and `stored_unless_squeezed` that a value is held in all other cases in which it fits.
-/

namespace ReadThrough

/-- The tier that is not this one. -/
def Tier.other : Tier → Tier
  | .main => .hot
  | .hot => .main

/-- The bytes that a tier may hold. -/
def TierPolicy.allotment (policy : TierPolicy) : Tier → Nat
  | .main => policy.mainBytes
  | .hot => policy.hotBytes

/-- A tier with so many bytes in use has to give way rather than the other one with its bytes. -/
def TierPolicy.Yields (policy : TierPolicy) : Tier → Nat → Nat → Prop
  | .main, used, across => across ≤ used / policy.divisor
  | .hot, used, across => across / policy.divisor < used

instance (policy : TierPolicy) (tier : Tier) (used across : Nat) :
    Decidable (policy.Yields tier used across) :=
  match tier with
  | .main => inferInstanceAs (Decidable (_ ≤ _))
  | .hot => inferInstanceAs (Decidable (_ < _))

/-- A tier that has to give way has to when it uses more. -/
theorem TierPolicy.Yields.mono {policy : TierPolicy} {tier : Tier} {used more across : Nat}
    (h : policy.Yields tier used across) (hle : used ≤ more) : policy.Yields tier more across := by
  cases tier with
  | main => exact Nat.le_trans h (Nat.div_le_div_right hle)
  | hot => exact Nat.lt_of_lt_of_le h hle

/-- Entries that use so many bytes of one tier leave too little of the shared budget for a new entry
of the other tier, and are too few to give way to it. -/
def TierPolicy.Squeezes (policy : TierPolicy) (tier : Tier) (size across : Nat) : Prop :=
  policy.cacheBytes < size + across ∧ policy.Yields tier size across

instance (policy : TierPolicy) (tier : Tier) (size across : Nat) :
    Decidable (policy.Squeezes tier size across) :=
  inferInstanceAs (Decidable (_ ∧ _))

/-- The bytes that a new entry needs of the shared budget so that no entries of the other tier
squeeze it out. -/
def TierPolicy.roomFor (policy : TierPolicy) : Tier → Nat → Nat
  | .main, size => size + size / policy.divisor
  | .hot, size => size + size * policy.divisor

theorem TierPolicy.not_squeezes {policy : TierPolicy} {tier : Tier} {size across : Nat}
    (hroom : policy.roomFor tier size ≤ policy.cacheBytes) : ¬policy.Squeezes tier size across := by
  have hdivisor : 0 < policy.divisor := Nat.lt_of_lt_of_le Nat.one_pos (Nat.le_max_right _ _)
  rintro ⟨hover, hyields⟩
  cases tier with
  | main =>
      have hle : across ≤ size / policy.divisor := hyields
      simp only [roomFor] at hroom
      omega
  | hot =>
      have hlt : across < size * policy.divisor := (Nat.div_lt_iff_lt_mul hdivisor).1 hyields
      simp only [roomFor] at hroom
      omega

namespace Recency

theorem evictOldest_entries (cache : Recency) :
    cache.evictOldest.cache.entries = cache.entries.tail := by
  unfold evictOldest
  cases hentries : cache.entries with
  | nil => rw [hentries, List.tail_nil]
  | cons entry rest => rfl

end Recency

namespace Tiered

/-- One tier of a pair. -/
def side (cache : Tiered) : Tier → Recency
  | .main => cache.main
  | .hot => cache.hot

/-- The tier that has to give way. -/
def yielding (cache : Tiered) : Tier :=
  if cache.policy.hotIsOverShare cache.main.bytes cache.hot.bytes then .hot else .main

/-- The most recent entries of the other tier, as far back as some entry, squeeze a new one out. -/
def Squeezed (cache : Tiered) (key : String) (value : Value) (tier : Tier) : Prop :=
  ∃ recent, recent <:+ (cache.side tier.other).others key ∧
    cache.policy.Squeezes tier (entrySize key value) (charge recent)

variable {cache start : Tiered} {key : String} {value : Value} {tier : Tier} {entry : Entry}

/-! ## One tier and the other -/

theorem entries_eq_side (cache : Tiered) (tier : Tier) :
    cache.entries tier = (cache.side tier).entries := by
  cases tier <;> rfl

theorem Sound.exact (h : cache.Sound) (tier : Tier) : (cache.side tier).Exact := by
  cases tier with
  | main => exact h.mainExact
  | hot => exact h.hotExact

theorem Sound.budget (h : cache.Sound) (tier : Tier) :
    (cache.side tier).budget = cache.policy.allotment tier := by
  cases tier with
  | main => exact h.mainBudget
  | hot => exact h.hotBudget

theorem within_iff (tier : Tier) : cache.Within ↔
    (cache.side tier).bytes + (cache.side tier.other).bytes ≤ cache.policy.cacheBytes := by
  cases tier with
  | main => exact Iff.rfl
  | hot => rw [Nat.add_comm]; exact Iff.rfl

theorem yielding_eq_iff (tier : Tier) : cache.yielding = tier ↔
    cache.policy.Yields tier (cache.side tier).bytes (cache.side tier.other).bytes := by
  cases tier <;>
    simp [yielding, TierPolicy.hotIsOverShare, TierPolicy.Yields, side, Tier.other]

theorem other_eq_of_ne {first second : Tier} (h : first ≠ second) : first = second.other := by
  cases first <;> cases second <;> first | rfl | exact absurd rfl h

/-- The tier that gives way loses its oldest entry, and the other one keeps what it has. -/
theorem giveWay_side (cache : Tiered) (tier : Tier) : cache.giveWay.cache.side tier =
    if cache.yielding = tier then (cache.side tier).evictOldest.cache else cache.side tier := by
  unfold giveWay yielding
  cases tier <;> split <;> simp [side, *]

theorem place_side (cache : Tiered) (key : String) (value : Value) (tier : Tier) :
    (cache.place key value tier).cache.side tier = ((cache.side tier).add key value).cache := by
  cases tier <;> rfl

theorem place_side_other (cache : Tiered) (key : String) (value : Value) (tier : Tier) :
    (cache.place key value tier).cache.side tier.other =
      ((cache.side tier.other).remove key).cache := by
  cases tier <;> rfl

theorem place_result (cache : Tiered) (key : String) (value : Value) (tier : Tier) :
    (cache.place key value tier).result = ((cache.side tier).add key value).result := by
  cases tier <;> rfl

/-! ## While a pair is balanced -/

theorem suffix_of_balancing (h : Balancing start cache) (tier : Tier) :
    (cache.side tier).entries <:+ (start.side tier).entries := by
  induction h with
  | here => exact List.suffix_refl _
  | @next cache _ _ _ ih =>
      rw [giveWay_side]
      split
      · rw [Recency.evictOldest_entries]
        exact (List.tail_suffix _).trans ih
      · exact ih

/-- A tier whose last entry is a new one holds it until the tier is empty. -/
theorem eq_concat_of_balancing {old : List Entry} (h : Balancing start cache)
    (hlast : (start.side tier).entries = old ++ [entry]) (hsome : (cache.side tier).entries ≠ []) :
    ∃ others, (cache.side tier).entries = others ++ [entry] := by
  have hsuffix := suffix_of_balancing h tier
  rw [hlast, List.suffix_concat_iff] at hsuffix
  rcases hsuffix with hnil | ⟨others, heq, -⟩
  · exact absurd hnil hsome
  · exact ⟨others, heq⟩

/-- A new entry is lost only if it is all that is left of its tier, and that tier has to give way to
what is left of the other one. -/
theorem squeezed_of_balancing {old : List Entry} (hstart : start.Sound)
    (hlast : (start.side tier).entries = old ++ [entry]) (h : Balancing start cache)
    (hlost : (cache.side tier).entries = []) :
    ∃ recent, recent <:+ (start.side tier.other).entries ∧
      start.policy.Squeezes tier entry.size (charge recent) := by
  induction h with
  | here => simp [hlast] at hlost
  | @next cache hcache hover hsome ih =>
      by_cases hbefore : (cache.side tier).entries = []
      · exact ih hbefore
      · have hsound := (Below.of_balancing hcache).sound hstart
        have hpolicy := (Below.of_balancing hcache).policy
        rw [giveWay_side] at hlost
        split at hlost
        · next hyields =>
          -- the entry is the only one of its tier, and the tier gives way
          obtain ⟨others, heq⟩ := eq_concat_of_balancing hcache hlast hbefore
          have honly : (cache.side tier).entries = [entry] := by
            rw [Recency.evictOldest_entries, heq] at hlost
            cases others with
            | nil => exact heq
            | cons first rest => simp at hlost
          have hbytes := (hsound.exact tier).counted
          rw [honly, charge_cons, charge_nil, Nat.add_zero] at hbytes
          rw [yielding_eq_iff, hbytes, (hsound.exact _).counted, hpolicy] at hyields
          rw [within_iff tier, hbytes, (hsound.exact _).counted, hpolicy] at hover
          exact ⟨_, suffix_of_balancing hcache tier.other, Nat.not_le.1 hover, hyields⟩
        · exact absurd hlost hbefore

/-- Entries of the other tier that leave too little for a new entry, and are too few to give way,
stay until the new entry is lost. -/
theorem recent_of_balancing {old recent : List Entry} (hstart : start.Sound)
    (hlast : (start.side tier).entries = old ++ [entry])
    (hrecent : recent <:+ (start.side tier.other).entries)
    (hyields : start.policy.Yields tier entry.size (charge recent)) (h : Balancing start cache) :
    (cache.side tier).entries = [] ∨ recent <:+ (cache.side tier.other).entries := by
  induction h with
  | here => exact .inr hrecent
  | @next cache hcache hover hsome ih =>
      by_cases hbefore : (cache.side tier).entries = []
      · left
        exact List.suffix_nil.1 (hbefore ▸ suffix_of_balancing (.next .here hover hsome) tier)
      · right
        have hkept := ih.resolve_left hbefore
        rw [giveWay_side]
        split
        · next hother =>
          obtain ⟨front, heq⟩ := hkept
          rw [Recency.evictOldest_entries, ← heq]
          cases front with
          | cons first rest => exact List.suffix_append rest recent
          | nil =>
              -- these are all entries of the other tier, so the tier of the new one gives way
              have hsound := (Below.of_balancing hcache).sound hstart
              obtain ⟨others, hconcat⟩ := eq_concat_of_balancing hcache hlast hbefore
              have hle : entry.size ≤ (cache.side tier).bytes := by
                rw [(hsound.exact tier).counted, hconcat, charge_append, charge_cons, charge_nil]
                exact Nat.le_add_left _ _
              have hown := hyields.mono hle
              rw [← (Below.of_balancing hcache).policy, ← List.nil_append recent, heq,
                ← (hsound.exact _).counted, ← yielding_eq_iff, hother] at hown
              cases tier <;> cases hown
        · exact hkept

/-- A new entry is held by its tier after balancing unless it was squeezed out. -/
theorem mem_balance_iff {old : List Entry} (hstart : start.Sound)
    (hlast : (start.side tier).entries = old ++ [entry]) :
    entry ∈ (start.balance.cache.side tier).entries ↔
      ¬∃ recent, recent <:+ (start.side tier.other).entries ∧
        start.policy.Squeezes tier entry.size (charge recent) := by
  obtain ⟨hbalancing, hwithin⟩ := balance_balancing hstart
  have hsound := (Below.of_balancing hbalancing).sound hstart
  constructor
  · rintro hmem ⟨recent, hrecent, hover, hyields⟩
    have hsome := List.ne_nil_of_mem hmem
    have hkept := (recent_of_balancing hstart hlast hrecent hyields hbalancing).resolve_left hsome
    obtain ⟨others, heq⟩ := eq_concat_of_balancing hbalancing hlast hsome
    obtain ⟨front, hfront⟩ := hkept
    rw [within_iff tier, (hsound.exact _).counted, (hsound.exact _).counted, heq, ← hfront,
      charge_append, charge_append, charge_cons, (Below.of_balancing hbalancing).policy] at hwithin
    omega
  · intro hspared
    by_cases hlost : (start.balance.cache.side tier).entries = []
    · exact absurd (squeezed_of_balancing hstart hlast hbalancing hlost) hspared
    · obtain ⟨others, heq⟩ := eq_concat_of_balancing hbalancing hlast hlost
      rw [heq]
      exact List.mem_append_right _ List.mem_cons_self

/-! ## Storing -/

/-- The answer to a store tells whether there is a budget and the value fits its tier. -/
theorem add_result (h : cache.Sound) : (cache.add key value tier).result = true ↔
    cache.policy.cacheBytes ≠ 0 ∧ entrySize key value ≤ cache.policy.allotment tier := by
  unfold add
  split
  · next hzero => simp [hzero]
  · next hsome =>
    rw [place_result, Recency.add_result, h.budget]
    simp [hsome]

/-- Placing a value leaves no other one of its key. -/
theorem eq_of_mem_place {place : Tier}
    (hmem : entry ∈ ((cache.place key value tier).cache.side place).entries)
    (hkey : entry.key = key) : place = tier ∧ entry = ⟨key, value⟩ := by
  by_cases hplace : place = tier
  · subst hplace
    rw [place_side] at hmem
    exact ⟨rfl, (Recency.mem_add hmem).resolve_left fun hold ↦ hold.2 hkey⟩
  · rw [other_eq_of_ne hplace, place_side_other] at hmem
    exact absurd hkey (Recency.ne_of_mem_remove hmem)

/-- Storing a value leaves no other one of its key where the value is answered for. -/
theorem eq_of_mem_add {place : Tier} {held : Value} (h : cache.Sound) (hwithin : cache.Within)
    (hmem : ⟨key, held⟩ ∈ (cache.add key value tier).cache.entries place) :
    place = tier ∧ held = value := by
  unfold add at hmem
  split at hmem
  · next hzero =>
    rw [entries_eq_nil h hwithin hzero] at hmem
    cases hmem
  · have hplaced := (balance_below _).entries place _ hmem
    rw [entries_eq_side] at hplaced
    obtain ⟨htier, heq⟩ := eq_of_mem_place hplaced rfl
    cases heq
    exact ⟨htier, rfl⟩

/-- A value is held by its tier once it is stored if the answer says so, unless it was squeezed
out. -/
theorem mem_add_iff (h : cache.Sound) (hwithin : cache.Within) :
    ⟨key, value⟩ ∈ (cache.add key value tier).cache.entries tier ↔
      (cache.add key value tier).result = true ∧ ¬cache.Squeezed key value tier := by
  rw [add_result h]
  unfold add
  split
  · next hzero =>
    rw [entries_eq_nil h hwithin hzero]
    simp [hzero]
  · next hsome =>
    have hplaced := h.place key value tier
    by_cases hfits : entrySize key value ≤ (cache.side tier).budget
    · obtain ⟨-, old, -, hlast, -⟩ := (h.exact tier).add_entries hfits
      rw [← place_side] at hlast
      rw [entries_eq_side, mem_balance_iff hplaced hlast, place_side_other, Recency.remove_entries,
        place_policy]
      exact ⟨fun hspared ↦ ⟨⟨hsome, h.budget tier ▸ hfits⟩, hspared⟩, And.right⟩
    · -- the value is refused, and no older one of its key stays
      refine iff_of_false (fun hmem ↦ ?_) fun hstored ↦ hfits (h.budget tier ▸ hstored.1.2)
      have hmem := (balance_below _).entries tier _ hmem
      rw [entries_eq_side, place_side, Recency.add_entries_of_lt (Nat.not_le.1 hfits)] at hmem
      exact (Recency.mem_others.1 hmem).2 rfl

/-- What is answered to a store, and what it leaves. On a pair that any operations left, the answer
tells whether there is a budget and the value fits the allotment of its tier. A value that does not
fit leaves none of its key in either tier. One that fits is held by its tier unless entries of the
other tier squeeze it out while the pair is balanced, which they cannot if there is room for it, and
no other value of its key is held. -/
theorem stored_unless_squeezed (policy : TierPolicy) (operations : List Operation) (key : String)
    (value : Value) (tier : Tier) :
    let cache := operations.foldl Tiered.apply (empty policy)
    let step := cache.add key value tier
    (step.result = true ↔
      policy.cacheBytes ≠ 0 ∧ entrySize key value ≤ policy.allotment tier) ∧
    (step.result = false → ∀ place held, ⟨key, held⟩ ∉ step.cache.entries place) ∧
    (⟨key, value⟩ ∈ step.cache.entries tier ↔
      step.result = true ∧ ¬cache.Squeezed key value tier) ∧
    (policy.roomFor tier (entrySize key value) ≤ policy.cacheBytes →
      ¬cache.Squeezed key value tier) ∧
    ∀ place held, ⟨key, held⟩ ∈ step.cache.entries place → place = tier ∧ held = value := by
  intro cache step
  obtain ⟨hpolicy, hsound, hwithin⟩ :=
    sound_foldl operations (sound_empty policy) (Nat.zero_le policy.cacheBytes)
  have hresult : step.result = true ↔
      policy.cacheBytes ≠ 0 ∧ entrySize key value ≤ policy.allotment tier := by
    rw [add_result hsound, hpolicy]
    rfl
  refine ⟨hresult, ?_, mem_add_iff hsound hwithin, ?_, ?_⟩
  · intro hrefused place held hmem
    obtain ⟨rfl, rfl⟩ := eq_of_mem_add hsound hwithin hmem
    have hstored := ((mem_add_iff hsound hwithin).1 hmem).1
    rw [hrefused] at hstored
    cases hstored
  · rintro hroom ⟨recent, -, hsqueezes⟩
    refine TierPolicy.not_squeezes ?_ hsqueezes
    rw [hpolicy]
    exact hroom
  · exact fun place held hmem ↦ eq_of_mem_add hsound hwithin hmem

/-- There is room for a small entry in the hot tier beside one that takes up most of the budget. -/
theorem stored_unless_squeezed_small :
    let cache := [.add "m" (.lasting "owned".toUTF8) .main].foldl Tiered.apply (empty ⟨100, 2⟩)
    ⟨"h", .lasting .empty⟩ ∈ (cache.add "h" (.lasting .empty) .hot).cache.entries .hot := by
  intro cache
  obtain ⟨hresult, -, hheld, hroom, -⟩ := stored_unless_squeezed ⟨100, 2⟩
    [.add "m" (.lasting "owned".toUTF8) .main] "h" (.lasting .empty) .hot
  exact hheld.2 ⟨hresult.2 ⟨by decide, by decide +kernel⟩, hroom (by decide +kernel)⟩

/-- An entry that fits the hot tier is squeezed out by one of the main tier although the answer is
that it is stored. -/
theorem fitting_entry_squeezed_out :
    let cache := [.add "m" (.lasting "owned".toUTF8) .main].foldl Tiered.apply (empty ⟨70, 2⟩)
    let step := cache.add "h" (.lasting .empty) .hot
    entrySize "h" (.lasting .empty) ≤ (TierPolicy.mk 70 2).hotBytes ∧ step.result = true ∧
      ∀ place held, ⟨"h", held⟩ ∉ step.cache.entries place := by
  intro cache step
  obtain ⟨-, hsound, hwithin⟩ := sound_foldl [.add "m" (.lasting "owned".toUTF8) .main]
    (sound_empty ⟨70, 2⟩) (Nat.zero_le 70)
  have hsqueezed : cache.Squeezed "h" (.lasting .empty) .hot :=
    ⟨[⟨"m", .lasting "owned".toUTF8⟩], ⟨[], by decide +kernel⟩, by decide +kernel⟩
  refine ⟨by decide +kernel, (add_result hsound).2 (by decide +kernel), ?_⟩
  intro place held hmem
  obtain ⟨rfl, rfl⟩ := eq_of_mem_add hsound hwithin hmem
  exact ((mem_add_iff hsound hwithin).1 hmem).2 hsqueezed

end Tiered

end ReadThrough
