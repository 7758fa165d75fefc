import ReadThrough.Proofs.Cache.Storing

/-!
# What a lookup finds and what it leaves

A key has at most one entry in a sound pair, so all lookups at an instant come to that entry: they
find it where it is live and nothing where it is not. Only a read moves it. `get_of_seen` and
`get_of_unseen` say what a read leaves, given what is seen without one, and `lookups_agree` puts
this together for a pair that any operations left.
-/

namespace ReadThrough

namespace Recency

variable {cache : Recency} {key : String} {value : Value} {now : Millis}

/-- A key has no other entry than the one that is found. -/
theorem filter_key (h : cache.keys.Nodup) (key : String) :
    cache.entries.filter (·.key = key) = (cache.find? key).toList := by
  cases hfind : cache.find? key with
  | none =>
      rw [Option.toList_none, List.filter_eq_nil_iff]
      simpa using ne_of_find? hfind
  | some entry =>
      obtain ⟨hmem, rfl⟩ := of_find? hfind
      have hperm := (perm_others h hmem).filter (·.key = entry.key)
      have hothers : (cache.entries.filter fun e ↦ e.key ≠ entry.key).filter
          (·.key = entry.key) = [] := by simp
      rw [List.filter_cons_of_pos (by simp), hothers] at hperm
      exact List.perm_singleton.1 hperm

/-! ## Reading -/

theorem get_of_find?_none (h : cache.find? key = none) : cache.get key now = ⟨none, cache, []⟩ := by
  rw [get, h]

/-- A read of what is seen moves its entry to the recent end. -/
theorem get_of_seen (hseen : cache.peek key now = some value) :
    cache.get key now =
      ⟨some value, { cache with entries := cache.others key ++ [⟨key, value⟩] }, []⟩ := by
  unfold peek at hseen
  cases hfind : cache.find? key with
  | none => simp [hfind] at hseen
  | some entry =>
      obtain ⟨-, rfl⟩ := of_find? hfind
      rw [hfind] at hseen
      dsimp only at hseen
      split at hseen
      · cases hseen
      · next hlive =>
        cases hseen
        simp [get, hfind, hlive]

theorem others_get (cache : Recency) (key : String) (now : Millis) :
    (cache.get key now).cache.others key = cache.others key := by
  unfold get
  cases hfind : cache.find? key with
  | none => rfl
  | some entry =>
      obtain ⟨-, rfl⟩ := of_find? hfind
      dsimp only
      split <;> simp [depart, others, List.filter_filter]

/-- Where nothing is seen, a read leaves the entries of other keys: one of the key itself has
expired and departs. -/
theorem Exact.get_of_unseen (h : cache.Exact) (hunseen : cache.peek key now = none) :
    cache.get key now =
        ⟨none, { cache with entries := cache.others key, bytes := charge (cache.others key) },
          (cache.find? key).toList.map (Entry.departing · .expired)⟩ ∧
      ∀ entry ∈ cache.find? key, entry.value.expired now = true := by
  unfold peek at hunseen
  cases hfind : cache.find? key with
  | none =>
      refine ⟨?_, fun entry hmem ↦ nomatch hmem⟩
      rw [get_of_find?_none hfind, others_eq_of_find? hfind, ← h.counted]
      rfl
  | some entry =>
      obtain ⟨hmem, rfl⟩ := of_find? hfind
      rw [hfind] at hunseen
      dsimp only at hunseen
      split at hunseen
      · next hexpired =>
        have hbytes : cache.bytes - entry.size = charge (cache.others entry.key) :=
          ((depart_below hmem .expired).exact h).counted
        refine ⟨?_, fun found hfound ↦ Option.some.inj hfound ▸ hexpired⟩
        simp [get, hfind, hexpired, depart, hbytes]
      · cases hunseen

end Recency

namespace Tiered

variable {cache : Tiered} {key : String} {value : Value} {tier : Tier} {now : Millis}

/-! ## What is found -/

/-- A key of one tier is none of the other one. -/
theorem Sound.not_mem_other (h : cache.Sound) (hmem : ⟨key, value⟩ ∈ cache.entries tier) :
    key ∉ (cache.side tier.other).keys := by
  intro hkey
  obtain ⟨other, hother, heq⟩ := List.mem_map.1 hkey
  cases tier with
  | main => exact h.apart _ hmem other hother heq.symm
  | hot => exact h.apart other hother _ hmem heq

/-- A key is live in one tier at most, with one value. -/
theorem Live.unique {place : Tier} {held : Value} (h : cache.Sound)
    (hlive : cache.Live tier key value now) (hlive' : cache.Live place key held now) :
    place = tier ∧ held = value := by
  have hmem := hlive.1
  have hmem' := hlive'.1
  by_cases hplace : place = tier
  · subst hplace
    rw [entries_eq_side] at hmem hmem'
    cases List.inj_on_of_nodup_map (h.exact place).distinct hmem hmem' rfl
    exact ⟨rfl, rfl⟩
  · rw [other_eq_of_ne hplace, entries_eq_side] at hmem'
    exact absurd (List.mem_map_of_mem hmem') (h.not_mem_other hmem)

/-- What is seen is what is live. -/
theorem peek_eq_some (h : cache.Sound) (hwithin : cache.Within) :
    cache.peek key now = some (value, tier) ↔ cache.Live tier key value now := by
  refine ⟨live_of_peek h, fun hlive ↦ ?_⟩
  cases hpeek : cache.peek key now with
  | none => exact absurd hlive (not_live_of_peek h hwithin hpeek tier value)
  | some found =>
      obtain ⟨rfl, rfl⟩ := hlive.unique h (live_of_peek h hpeek)
      rfl

/-- No key is found under a budget of zero. -/
theorem find?_of_zero (h : cache.Sound) (hwithin : cache.Within)
    (hzero : cache.policy.cacheBytes = 0) (key : String) (tier : Tier) :
    (cache.side tier).find? key = none := by
  rw [Recency.find?, ← entries_eq_side, entries_eq_nil h hwithin hzero, List.find?_nil]

/-- What is seen in a tier is seen in the pair, where that tier is named. -/
theorem peek_eq_some_iff_side (h : cache.Sound) (hwithin : cache.Within) :
    cache.peek key now = some (value, tier) ↔ (cache.side tier).peek key now = some value := by
  rw [peek_eq_some h hwithin, Recency.peek_eq_some (h.exact tier), Live, Recency.Live,
    entries_eq_side]

theorem peek_side_of_unseen (h : cache.Sound) (hwithin : cache.Within)
    (hunseen : cache.peek key now = none) (tier : Tier) :
    (cache.side tier).peek key now = none := by
  cases hside : (cache.side tier).peek key now with
  | none => rfl
  | some value =>
      rw [(peek_eq_some_iff_side h hwithin).2 hside] at hunseen
      cases hunseen

/-- The tier that is named is that of what is seen. A budget of zero is not asked for, but then
there is nothing to name. -/
theorem tierOf_eq (h : cache.Sound) (hwithin : cache.Within) :
    cache.tierOf key now = (cache.peek key now).map Prod.snd := by
  unfold tierOf Recency.contains
  cases hmain : cache.main.peek key now with
  | some value =>
      have hseen : cache.peek key now = some (value, .main) :=
        (peek_eq_some_iff_side h hwithin).2 hmain
      rw [hseen]
      rfl
  | none =>
      cases hhot : cache.hot.peek key now with
      | some value =>
          have hseen : cache.peek key now = some (value, .hot) :=
            (peek_eq_some_iff_side h hwithin).2 hhot
          rw [hseen]
          rfl
      | none =>
          have hunseen : cache.peek key now = none := by
            unfold peek
            rw [hmain, hhot]
            split <;> rfl
          rw [hunseen]
          rfl

/-! ## What is left -/

/-- A read of what is seen moves its entry to the recent end of its tier. -/
theorem get_of_seen (h : cache.Sound) (hseen : cache.peek key now = some (value, tier)) :
    (cache.get key now).departures = [] ∧
      (cache.get key now).cache.side tier.other = cache.side tier.other ∧
      (cache.get key now).cache.side tier =
        { cache.side tier with entries := (cache.side tier).others key ++ [⟨key, value⟩] } := by
  have hmem := (live_of_peek h hseen).1
  unfold peek at hseen
  unfold get
  split at hseen
  · cases hseen
  · next hsome =>
    rw [if_neg hsome]
    split at hseen
    · next found hmain =>
      cases hseen
      rw [Recency.get_of_seen hmain]
      exact ⟨rfl, rfl, rfl⟩
    · next hmain =>
      obtain ⟨found, hhot, heq⟩ := Option.map_eq_some_iff.1 hseen
      cases heq
      have hnone : cache.main.find? key = none := Recency.find?_of_not_mem (h.not_mem_other hmem)
      rw [Recency.get_of_find?_none hnone, Recency.get_of_seen hhot]
      exact ⟨rfl, rfl, rfl⟩

/-- Where nothing is seen, a read leaves the entries of other keys in both tiers, and those of the
key depart as expired. -/
theorem get_of_unseen (h : cache.Sound) (hwithin : cache.Within)
    (hunseen : cache.peek key now = none) :
    (∀ tier, (cache.get key now).cache.side tier =
      { cache.side tier with
        entries := (cache.side tier).others key
        bytes := charge ((cache.side tier).others key) }) ∧
    (cache.get key now).departures =
      ((cache.main.find? key).toList ++ (cache.hot.find? key).toList).map
        (Entry.departing · .expired) ∧
    ∀ tier, ∀ entry ∈ (cache.side tier).find? key, entry.value.expired now = true := by
  have hreads := fun tier ↦
    (h.exact tier).get_of_unseen (peek_side_of_unseen h hwithin hunseen tier)
  have hmain : cache.main.get key now = _ := (hreads .main).1
  have hhot : cache.hot.get key now = _ := (hreads .hot).1
  refine and_assoc.1 ⟨?_, fun tier ↦ (hreads tier).2⟩
  unfold get
  split
  · next hzero =>
    -- neither tier is asked, but neither holds an entry
    have hnone := find?_of_zero h hwithin hzero key
    refine ⟨fun tier ↦ ?_, ?_⟩
    · have hread := (hreads tier).1
      rw [Recency.get_of_find?_none (hnone tier)] at hread
      exact congrArg Recency.Step.cache hread
    · have hmain : cache.main.find? key = none := hnone .main
      have hhot : cache.hot.find? key = none := hnone .hot
      rw [hmain, hhot]
      rfl
  · rw [hmain, hhot]
    refine ⟨fun tier ↦ ?_, List.map_append.symm⟩
    cases tier <;> rfl

/-- A read leaves the entries of other keys as they are. -/
theorem others_get (cache : Tiered) (key : String) (now : Millis) (tier : Tier) :
    ((cache.get key now).cache.side tier).others key = (cache.side tier).others key := by
  unfold get
  split
  · rfl
  · dsimp only
    cases tier with
    | main => split <;> exact Recency.others_get cache.main key now
    | hot =>
        split
        · rfl
        · exact Recency.others_get cache.hot key now

/-- A key has at most one entry in both tiers. -/
theorem Sound.filter_key (h : cache.Sound) (key : String) : ∃ held : Option Entry,
    (cache.main.entries ++ cache.hot.entries).filter (·.key = key) = held.toList ∧
      (cache.main.find? key).toList ++ (cache.hot.find? key).toList = held.toList ∧
      ∀ entry ∈ held, ∃ tier, entry ∈ (cache.side tier).find? key := by
  rw [List.filter_append, Recency.filter_key h.mainExact.distinct,
    Recency.filter_key h.hotExact.distinct]
  cases hfind : cache.main.find? key with
  | none => exact ⟨cache.hot.find? key, rfl, rfl, fun entry hheld ↦ ⟨.hot, hheld⟩⟩
  | some entry =>
      obtain ⟨hmem, rfl⟩ := Recency.of_find? hfind
      have hheld : ⟨entry.key, entry.value⟩ ∈ cache.entries .main := hmem
      have hnone : cache.hot.find? entry.key = none :=
        Recency.find?_of_not_mem (h.not_mem_other hheld)
      rw [hnone, Option.toList_none, List.append_nil]
      exact ⟨some entry, rfl, rfl, fun held hfound ↦ ⟨.main, hfind.trans hfound⟩⟩

/-- Lookups agree. On a pair that any operations left, a read of a key, a look at it and the tier
that is named for it come to the one value that is live at that instant, or all to none. A look
changes nothing. A read leaves the entries of other keys with their values, in their order; it moves
the entry that it answers to the recent end of its tier, or where it answers nothing, takes out the
one that the key may have, which has expired, and tells of that once. -/
theorem lookups_agree (policy : TierPolicy) (operations : List Operation) (key : String)
    (now : Millis) :
    let cache := operations.foldl Tiered.apply (empty policy)
    let step := cache.get key now
    step.result = cache.peek key now ∧
    cache.tierOf key now = step.result.map Prod.snd ∧
    (∀ value tier, step.result = some (value, tier) ↔ cache.Live tier key value now) ∧
    cache.apply (.peek key now) = cache ∧
    step.cache.policy = cache.policy ∧
    (∀ tier, (step.cache.side tier).others key = (cache.side tier).others key) ∧
    (∀ value tier, step.result = some (value, tier) →
      step.departures = [] ∧ step.cache.side tier.other = cache.side tier.other ∧
      step.cache.side tier =
        { cache.side tier with entries := (cache.side tier).others key ++ [⟨key, value⟩] }) ∧
    (step.result = none →
      (∀ tier, step.cache.side tier =
        { cache.side tier with
          entries := (cache.side tier).others key
          bytes := charge ((cache.side tier).others key) }) ∧
      ∃ stale : Option Entry,
        (cache.main.entries ++ cache.hot.entries).filter (·.key = key) = stale.toList ∧
        (∀ entry ∈ stale, entry.value.expired now = true) ∧
        step.departures = stale.toList.map (Entry.departing · .expired)) := by
  intro cache step
  obtain ⟨-, hsound, hwithin⟩ :=
    sound_foldl operations (sound_empty policy) (Nat.zero_le policy.cacheBytes)
  have hresult : step.result = cache.peek key now := get_result cache key now
  refine ⟨hresult, ?_, ?_, rfl, (cache.get_below key now).policy, cache.others_get key now, ?_, ?_⟩
  · rw [hresult]
    exact tierOf_eq hsound hwithin
  · intro value tier
    rw [hresult]
    exact peek_eq_some hsound hwithin
  · intro value tier hseen
    exact get_of_seen hsound (hresult ▸ hseen)
  · intro hunseen
    obtain ⟨hleft, htold, hexpired⟩ := get_of_unseen hsound hwithin (hresult ▸ hunseen)
    obtain ⟨stale, hheld, hfound, hplaces⟩ := hsound.filter_key key
    refine ⟨hleft, stale, hheld, ?_, hfound ▸ htold⟩
    intro entry hstale
    obtain ⟨tier, hplace⟩ := hplaces entry hstale
    exact hexpired tier entry hplace

/-- A read that comes too late takes a short-lived value out of the main tier and tells of it, and
another one is answered by the hot tier. -/
theorem lookups_agree_late :
    let short : Value := .make 0 .empty (some 5)
    let operations : List Operation := [.add "a" short .main, .add "b" (.lasting .empty) .hot]
    let cache := operations.foldl Tiered.apply (empty ⟨100, 1⟩)
    (cache.get "a" 10).departures = [⟨"a", short, .expired⟩] ∧
      (cache.get "a" 10).cache.main.bytes = 0 ∧ cache.tierOf "b" 10 = some .hot ∧
      (cache.get "b" 10).departures = [] := by
  intro short operations cache
  have hstale : (cache.main.entries ++ cache.hot.entries).filter (·.key = "a") =
      [⟨"a", short⟩] := by decide +kernel
  have hunseen : cache.peek "a" 10 = none := by decide +kernel
  have hlive : cache.Live .hot "b" (.lasting .empty) 10 := by decide +kernel
  obtain ⟨hlate, -, -, -, -, -, -, hgone⟩ := lookups_agree ⟨100, 1⟩ operations "a" 10
  obtain ⟨-, hnamed, hfinds, -, -, -, hseen, -⟩ := lookups_agree ⟨100, 1⟩ operations "b" 10
  obtain ⟨hleft, stale, hheld, -, htold⟩ := hgone (hlate.trans hunseen)
  have hanswer := (hfinds _ _).2 hlive
  refine ⟨?_, ?_, ?_, (hseen _ _ hanswer).1⟩
  · rw [htold, ← hheld, hstale]
    rfl
  · have hmain : (cache.get "a" 10).cache.main = _ := hleft .main
    rw [hmain]
    decide +kernel
  · rw [hnamed, hanswer]
    rfl

end Tiered

end ReadThrough
