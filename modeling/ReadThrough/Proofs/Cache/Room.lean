import Mathlib.Logic.Function.Basic
import ReadThrough.Proofs.Cache.Storing

/-!
# How room is made for a value

A value that fits the allotment of its tier is written as the most recent entry of it, and then
entries leave one after the other until each tier is within its allotment and both are within the
shared budget. `GivesUp` says which tier has to give up its oldest entry at a moment, from what the
tiers hold at that moment, and `room_made` that a store goes on so and stops where no tier has to.
-/

namespace ReadThrough

namespace TierPolicy

/-- A tier has to give up its oldest entry, given what the tiers hold at a moment. -/
inductive GivesUp (policy : TierPolicy) (held : Tier → List Entry) : Tier → Prop where
  /-- it holds more than its own allotment -/
  | allotment {tier : Tier} : policy.allotment tier < charge (held tier) → policy.GivesUp held tier
  /-- the pair holds more than the shared budget, and the hot tier more than its share -/
  | hot : (∀ tier, charge (held tier) ≤ policy.allotment tier) →
      policy.cacheBytes < charge (held .main) + charge (held .hot) →
      charge (held .main) / max policy.hotRatio 1 < charge (held .hot) → policy.GivesUp held .hot
  /-- the pair holds more than the shared budget, and the hot tier no more than its share -/
  | main : (∀ tier, charge (held tier) ≤ policy.allotment tier) →
      policy.cacheBytes < charge (held .main) + charge (held .hot) →
      charge (held .hot) ≤ charge (held .main) / max policy.hotRatio 1 → policy.GivesUp held .main

/-- Entries leave one after the other, each the oldest one of a tier that has to give one up at that
moment. -/
inductive MakesRoom (policy : TierPolicy) :
    (Tier → List Entry) → List (Tier × Entry) → (Tier → List Entry) → Prop where
  | done {held : Tier → List Entry} : policy.MakesRoom held [] held
  | next {held after : Tier → List Entry} {tier : Tier} {entry : Entry} {rest : List Entry}
      {victims : List (Tier × Entry)} : policy.GivesUp held tier → held tier = entry :: rest →
      policy.MakesRoom (Function.update held tier rest) victims after →
      policy.MakesRoom held ((tier, entry) :: victims) after

namespace MakesRoom

variable {policy : TierPolicy} {held middle after : Tier → List Entry}
  {first second victims : List (Tier × Entry)}

theorem trans (h : policy.MakesRoom held first middle) (h' : policy.MakesRoom middle second after) :
    policy.MakesRoom held (first ++ second) after := by
  induction h with
  | done => exact h'
  | next hgives hheld _ ih => exact .next hgives hheld (ih h')

/-- Every tier keeps the recent end of what it held. -/
theorem suffix (h : policy.MakesRoom held victims after) (tier : Tier) :
    after tier <:+ held tier := by
  induction h with
  | done => exact List.suffix_refl _
  | @next held after place entry rest victims _ hheld _ ih =>
      by_cases hplace : tier = place
      · subst hplace
        rw [Function.update_self] at ih
        rw [hheld]
        exact ih.trans (List.suffix_cons entry rest)
      · rwa [Function.update_of_ne hplace] at ih

end MakesRoom

/-- A tier makes room within its own allotment by giving up what is before the longest recent run
that fits. -/
theorem makesRoom_fitting {policy : TierPolicy} {held : Tier → List Entry} {tier : Tier}
    {evicted : List Entry}
    (hsplit : held tier = evicted ++ fitting (policy.allotment tier) (held tier)) :
    policy.MakesRoom held (evicted.map (tier, ·))
      (Function.update held tier (fitting (policy.allotment tier) (held tier))) := by
  induction evicted generalizing held with
  | nil =>
      rw [List.nil_append] at hsplit
      rw [← hsplit, Function.update_eq_self]
      exact .done
  | cons entry evicted ih =>
      have hover : policy.allotment tier < charge (held tier) := by
        by_contra hfits
        rw [fitting_of_le (Nat.not_lt.1 hfits)] at hsplit
        exact absurd (List.self_eq_append_left.1 hsplit) (List.cons_ne_nil _ _)
      rw [List.cons_append] at hsplit
      generalize hrest : evicted ++ fitting (policy.allotment tier) (held tier) = rest at hsplit
      have hkept : fitting (policy.allotment tier) (held tier) =
          fitting (policy.allotment tier) rest := by
        rw [hsplit] at hover ⊢
        exact fitting_cons_of_lt hover
      rw [hkept] at hrest ⊢
      have hmakes := @ih (Function.update held tier rest)
      rw [Function.update_self, Function.update_idem] at hmakes
      exact .next (.allotment hover) hsplit (hmakes hrest.symm)

end TierPolicy

namespace Tiered

variable {cache : Tiered} {key : String} {value : Value} {tier : Tier}

/-! ## Balancing -/

theorem Sound.bytes (h : cache.Sound) (tier : Tier) :
    (cache.side tier).bytes = charge (cache.entries tier) := by
  rw [entries_eq_side]
  exact (h.exact tier).counted

theorem Sound.allotted (h : cache.Sound) (tier : Tier) :
    charge (cache.entries tier) ≤ cache.policy.allotment tier := by
  rw [← h.bytes, ← h.budget]
  cases tier with
  | main => exact h.mainFits
  | hot => exact h.hotFits

/-- The tier that gives way has to give up an entry. -/
theorem Sound.givesUp (h : cache.Sound) (hover : ¬cache.Within) :
    cache.policy.GivesUp cache.entries cache.yielding := by
  have htotal : cache.policy.cacheBytes <
      charge (cache.entries .main) + charge (cache.entries .hot) := by
    rw [within_iff .main, h.bytes, h.bytes] at hover
    exact Nat.not_le.1 hover
  have hyields := (yielding_eq_iff cache.yielding).1 rfl
  rw [h.bytes, h.bytes] at hyields
  generalize cache.yielding = tier at hyields ⊢
  cases tier with
  | main => exact .main h.allotted htotal hyields
  | hot => exact .hot h.allotted htotal hyields

/-- A pair that is sound and within the shared budget has nothing to give up. -/
theorem Sound.not_givesUp (h : cache.Sound) (hwithin : cache.Within) (tier : Tier) :
    ¬cache.policy.GivesUp cache.entries tier := by
  rw [within_iff .main, h.bytes, h.bytes] at hwithin
  intro hgives
  cases hgives with
  | allotment hover => exact absurd (h.allotted tier) (Nat.not_le.2 hover)
  | hot _ hover | main _ hover => exact absurd hwithin (Nat.not_le.2 hover)

theorem giveWay_departures (cache : Tiered) :
    cache.giveWay.departures = (cache.side cache.yielding).evictOldest.departures := by
  unfold giveWay yielding
  split <;> rfl

theorem giveWay_result (cache : Tiered) :
    cache.giveWay.result = (cache.side cache.yielding).evictOldest.result := by
  unfold giveWay yielding
  split <;> rfl

/-- An entry that gives way is the oldest one of its tier, and nothing else leaves. -/
theorem giveWay_entries (hsome : cache.giveWay.result.isSome) :
    ∃ entry rest, cache.entries cache.yielding = entry :: rest ∧
      cache.giveWay.cache.entries = Function.update cache.entries cache.yielding rest ∧
      cache.giveWay.departures = [entry.departing .evicted] := by
  rw [giveWay_result] at hsome
  cases hheld : (cache.side cache.yielding).entries with
  | nil => simp [Recency.evictOldest, hheld] at hsome
  | cons entry rest =>
      refine ⟨entry, rest, (entries_eq_side _ _).trans hheld, ?_, ?_⟩
      · funext place
        rw [entries_eq_side, giveWay_side]
        by_cases hplace : cache.yielding = place
        · subst hplace
          rw [if_pos rfl, Recency.evictOldest_entries, hheld, Function.update_self, List.tail_cons]
        · rw [if_neg hplace, Function.update_of_ne (Ne.symm hplace), entries_eq_side]
      · rw [giveWay_departures]
        simp [Recency.evictOldest, hheld]

/-- Balancing makes room. -/
theorem balance_makesRoom (h : cache.Sound) :
    ∃ victims, cache.policy.MakesRoom cache.entries victims cache.balance.cache.entries ∧
      cache.balance.departures = victims.map fun victim ↦ victim.2.departing .evicted := by
  induction cache using balance.induct with
  | case1 cache hwithin =>
      rw [balance, if_pos hwithin]
      exact ⟨[], .done, rfl⟩
  | case2 cache hover victim hsome ih =>
      have hbelow := giveWay_below cache
      obtain ⟨entry, rest, hheld, hafter, htold⟩ := giveWay_entries hsome
      obtain ⟨victims, hmakes, hrest⟩ := ih (hbelow.sound h)
      rw [hbelow.policy, hafter] at hmakes
      rw [balance, if_neg hover]
      simp only [victim, hsome, dite_true] at hmakes hrest ⊢
      refine ⟨(cache.yielding, entry) :: victims, .next (h.givesUp hover) hheld hmakes, ?_⟩
      rw [htold, hrest]
      rfl
  | case3 cache hover victim hnone => exact absurd (isSome_giveWay h hover) hnone

/-! ## Storing -/

/-- What the tiers hold when a value is stored and no room is made yet: the entries of other keys in
their order, and the new one at the recent end of its tier if it fits the allotment. -/
def moved (cache : Tiered) (key : String) (value : Value) (tier place : Tier) : List Entry :=
  (cache.entries place).filter (·.key ≠ key) ++
    if place = tier ∧ entrySize key value ≤ cache.policy.allotment tier then [⟨key, value⟩] else []

theorem moved_self (hfits : entrySize key value ≤ cache.policy.allotment tier) :
    cache.moved key value tier tier = (cache.side tier).others key ++ [⟨key, value⟩] := by
  rw [moved, if_pos ⟨rfl, hfits⟩, entries_eq_side, Recency.others]

theorem moved_of_not {place : Tier}
    (h : ¬(place = tier ∧ entrySize key value ≤ cache.policy.allotment tier)) :
    cache.moved key value tier place = (cache.side place).others key := by
  rw [moved, if_neg h, List.append_nil, entries_eq_side, Recency.others]

theorem place_departures (cache : Tiered) (key : String) (value : Value) (tier : Tier) :
    (cache.place key value tier).departures =
      ((cache.side tier.other).remove key).departures ++
        ((cache.side tier).add key value).departures := by
  cases tier <;> rfl

theorem filter_remove_departures (cache : Recency) (key : String) :
    (cache.remove key).departures.filter (·.reason = .evicted) = [] := by
  rw [List.filter_eq_nil_iff]
  intro departure hmem
  obtain ⟨entry, -, -, rfl⟩ := Recency.mem_remove_departures hmem
  simp [Entry.departing]

theorem filter_evicted (victims : List (Tier × Entry)) :
    (victims.map fun victim ↦ victim.2.departing .evicted).filter (·.reason = .evicted) =
      victims.map fun victim ↦ victim.2.departing .evicted := by
  rw [List.filter_eq_self]
  intro departure hmem
  obtain ⟨victim, -, rfl⟩ := List.mem_map.1 hmem
  simp [Entry.departing]

/-- The tier of a value that is placed makes room for it, and only if it fits. -/
theorem place_makesRoom (h : cache.Sound) (key : String) (value : Value) (tier : Tier) :
    ∃ victims,
      cache.policy.MakesRoom (cache.moved key value tier) victims
        (cache.place key value tier).cache.entries ∧
      (cache.place key value tier).departures.filter (·.reason = .evicted) =
        victims.map fun victim ↦ victim.2.departing .evicted := by
  have hother : ∀ place, place ≠ tier → (cache.place key value tier).cache.entries place =
      cache.moved key value tier place := by
    intro place hplace
    rw [moved_of_not fun heq ↦ hplace heq.1, entries_eq_side, other_eq_of_ne hplace,
      place_side_other, Recency.remove_entries]
  rw [place_departures, List.filter_append, filter_remove_departures, List.nil_append]
  by_cases hfits : entrySize key value ≤ cache.policy.allotment tier
  · obtain ⟨evicted, hsplit, hkept, htold⟩ := (h.exact tier).add_evicts (h.budget tier ▸ hfits)
    rw [h.budget, ← moved_self hfits] at hsplit hkept
    refine ⟨evicted.map (tier, ·), ?_, ?_⟩
    · have hmakes := TierPolicy.makesRoom_fitting hsplit
      have hplaced : Function.update (cache.moved key value tier) tier
          (fitting (cache.policy.allotment tier) (cache.moved key value tier tier)) =
            (cache.place key value tier).cache.entries := by
        funext place
        by_cases hplace : place = tier
        · subst hplace
          rw [Function.update_self, ← hkept, entries_eq_side, place_side]
        · rw [Function.update_of_ne hplace, hother place hplace]
      rwa [hplaced] at hmakes
    · rw [htold, ← filter_evicted, List.map_map]
      rfl
  · have hlarge : (cache.side tier).budget < entrySize key value :=
      h.budget tier ▸ Nat.not_le.1 hfits
    have hplaced : cache.moved key value tier = (cache.place key value tier).cache.entries := by
      funext place
      by_cases hplace : place = tier
      · subst hplace
        rw [moved_of_not fun heq ↦ hfits heq.2, entries_eq_side, place_side,
          Recency.add_entries_of_lt hlarge]
      · exact (hother place hplace).symm
    refine ⟨[], hplaced ▸ .done, ?_⟩
    rw [Recency.add_of_lt hlarge, filter_remove_departures, List.map_nil]

/-- Under a budget of zero there is nothing to make room for. -/
theorem moved_of_zero (h : cache.Sound) (hwithin : cache.Within)
    (hzero : cache.policy.cacheBytes = 0) : cache.moved key value tier = cache.entries := by
  funext place
  rw [moved, entries_eq_nil h hwithin hzero, if_neg, List.append_nil, List.filter_nil]
  rintro ⟨-, hfits⟩
  have hnone : cache.policy.allotment tier = 0 := by
    cases tier with
    | main => exact hzero
    | hot =>
        show cache.policy.cacheBytes / _ = 0
        rw [hzero, Nat.zero_div]
  rw [hnone, entrySize, entryOverhead] at hfits
  omega

/-- Storing a value makes room for it, first in its tier and then in both. -/
theorem add_makesRoom (h : cache.Sound) (hwithin : cache.Within) (key : String) (value : Value)
    (tier : Tier) :
    ∃ victims,
      cache.policy.MakesRoom (cache.moved key value tier) victims
        (cache.add key value tier).cache.entries ∧
      (cache.add key value tier).departures.filter (·.reason = .evicted) =
        victims.map fun victim ↦ victim.2.departing .evicted := by
  unfold add
  by_cases hzero : cache.policy.cacheBytes = 0
  · rw [if_pos hzero, moved_of_zero h hwithin hzero]
    exact ⟨[], .done, rfl⟩
  · rw [if_neg hzero]
    obtain ⟨first, hplaced, hfirst⟩ := place_makesRoom h key value tier
    obtain ⟨second, hbalanced, hsecond⟩ := balance_makesRoom (h.place key value tier)
    rw [place_policy] at hbalanced
    refine ⟨first ++ second, hplaced.trans hbalanced, ?_⟩
    rw [List.filter_append, hfirst, hsecond, filter_evicted, List.map_append]

/-- What a store does to the pair. On a pair that any operations left, the tiers hold the entries of
other keys in their order and the new one, if it fits, at the recent end of its tier, and from there
entries leave one after the other, each the oldest one of a tier that has to give one up at that
moment, until no tier has to. They are told of as evicted in that order, and each tier keeps the
recent end of what it held. -/
theorem room_made (policy : TierPolicy) (operations : List Operation) (key : String)
    (value : Value) (tier : Tier) :
    let cache := operations.foldl Tiered.apply (empty policy)
    let step := cache.add key value tier
    (∀ place, step.cache.entries place <:+ cache.moved key value tier place) ∧
    (∀ place, ¬policy.GivesUp step.cache.entries place) ∧
    ∃ victims,
      policy.MakesRoom (cache.moved key value tier) victims step.cache.entries ∧
      step.departures.filter (·.reason = .evicted) =
        victims.map fun victim ↦ victim.2.departing .evicted := by
  intro cache step
  obtain ⟨hpolicy, hsound, hwithin⟩ :=
    sound_foldl operations (sound_empty policy) (Nat.zero_le policy.cacheBytes)
  obtain ⟨hafter, hsound', hwithin'⟩ := hsound.apply hwithin (.add key value tier)
  have hpolicy' : step.cache.policy = policy := hafter.trans hpolicy
  obtain ⟨victims, hmakes, htold⟩ := add_makesRoom hsound hwithin key value tier
  rw [hpolicy] at hmakes
  refine ⟨hmakes.suffix, fun place ↦ ?_, victims, hmakes, htold⟩
  exact hpolicy' ▸ hsound'.not_givesUp hwithin' place

end Tiered

end ReadThrough
