import ReadThrough.Proofs.Cache.Live
import ReadThrough.Proofs.Group.Agreement

/-!
# What a group holds and remembers

The parts of a get change the tiers and the remembered absences of a group in two ways. Most of
them leave no more than was there (`Less`). Taking in an answer for a key (`Takes`) may add the
value for it to one tier, or the absence of it.
-/

namespace ReadThrough.Group

/-- A group remembers an absence, as an entry of the key without payload. -/
def Marks (group : Group) (entry : Entry) : Prop :=
  ∃ absences, group.absences = some absences ∧ entry ∈ absences.entries

/-- The caches of a group count right and are within their budgets. -/
structure Tidy (group : Group) : Prop where
  sound : group.cache.Sound
  within : group.cache.Within
  absences : ∀ absences, group.absences = some absences →
    absences.Exact ∧ absences.bytes ≤ absences.budget

/-- A group that holds and remembers nothing that another one does not. -/
structure Less (after group : Group) : Prop where
  tidy : group.Tidy → after.Tidy
  entries : ∀ tier, ∀ entry ∈ after.cache.entries tier, entry ∈ group.cache.entries tier
  marks : ∀ entry, after.Marks entry → group.Marks entry

/-- A group that took in an answer for a key: if the answer is a value, it may be in the tier now,
and if it is an absence, that may be remembered. -/
structure Takes (after group : Group) (key : String) (tier : Tier) (outcome : Outcome) :
    Prop where
  tidy : group.Tidy → after.Tidy
  entries : ∀ other, ∀ entry ∈ after.cache.entries other, entry ∈ group.cache.entries other ∨
    other = tier ∧ entry.key = key ∧ outcome = .ok entry.value
  marks : ∀ entry, after.Marks entry → group.Marks entry ∨
    entry.key = key ∧ ∃ absent, outcome = .error (.notFound absent)

variable {group after : Group} {key : String} {tier : Tier} {outcome : Outcome}

/-! ## Groups that hold no more -/

theorem less_of_below (hcache : after.cache.Below group.cache)
    (habsences : ∀ absences, after.absences = some absences →
      ∃ before, group.absences = some before ∧ absences.Below before) : after.Less group where
  tidy := by
    intro h
    refine ⟨hcache.sound h.sound, hcache.within h.within, ?_⟩
    intro absences hsome
    obtain ⟨before, hbefore, hbelow⟩ := habsences absences hsome
    obtain ⟨hexact, hfits⟩ := h.absences before hbefore
    exact ⟨hbelow.exact hexact, hbelow.budget ▸ Nat.le_trans hbelow.bytes hfits⟩
  entries := hcache.entries
  marks := by
    rintro entry ⟨absences, hsome, hmem⟩
    obtain ⟨before, hbefore, hbelow⟩ := habsences absences hsome
    exact ⟨before, hbefore, hbelow.entries entry hmem⟩

/-- A group that has the tiers and the absences of another one. -/
theorem less_of_eq (hcache : after.cache = group.cache)
    (habsences : after.absences = group.absences) : after.Less group :=
  less_of_below (hcache ▸ .refl _) fun absences hsome ↦ ⟨absences, habsences ▸ hsome, .refl _⟩

/-- Only what a group holds and remembers matters. -/
theorem Less.congr {before : Group} (h : after.Less before) (hcache : before.cache = group.cache)
    (habsences : before.absences = group.absences) : after.Less group where
  tidy := fun htidy ↦ h.tidy ((less_of_eq hcache habsences).tidy htidy)
  entries := hcache ▸ h.entries
  marks := by
    unfold Marks
    rw [← habsences]
    exact h.marks

theorem consult_less (group : Group) (key : String) (now : Millis) (cancelled : Bool) :
    (group.consult key now cancelled).2.Less group := by
  have hread : (group.cache.get key now).cache.Below group.cache := group.cache.get_below key now
  have hremembered : ∀ absences,
      (group.absences.map fun absences ↦ absences.get key now).map Recency.Step.cache =
        some absences → ∃ before, group.absences = some before ∧ absences.Below before := by
    intro absences hsome
    rw [Option.map_map] at hsome
    obtain ⟨before, hbefore, rfl⟩ := Option.map_eq_some_iff.1 hsome
    exact ⟨before, hbefore, before.get_below key now⟩
  unfold consult
  dsimp only
  split
  · exact less_of_eq rfl rfl
  · split
    · exact less_of_below hread fun absences hsome ↦ ⟨absences, hsome, .refl _⟩
    · split <;> exact less_of_below hread hremembered

theorem remove_less (group : Group) (key : String) : (group.remove key).2.Less group := by
  refine less_of_below (group.cache.remove_below key) fun absences hsome ↦ ?_
  obtain ⟨before, hbefore, rfl⟩ := Option.map_eq_some_iff.1 hsome
  exact ⟨before, hbefore, before.remove_below key⟩

theorem clear_less (group : Group) : group.clear.Less group :=
  less_of_below group.cache.clear_below fun absences hsome ↦ ⟨absences, hsome, .refl _⟩

/-! ## Answers that are taken in -/

theorem Less.takes (h : after.Less group) : after.Takes group key tier outcome :=
  ⟨h.tidy, fun other entry hmem ↦ .inl (h.entries other entry hmem),
    fun entry hmarks ↦ .inl (h.marks entry hmarks)⟩

theorem takes_of_eq (hcache : after.cache = group.cache)
    (habsences : after.absences = group.absences) : after.Takes group key tier outcome :=
  (less_of_eq hcache habsences).takes

/-- Only what a group holds and remembers before it takes an answer in matters. -/
theorem Takes.congr {before : Group} (h : after.Takes before key tier outcome)
    (hcache : before.cache = group.cache) (habsences : before.absences = group.absences) :
    after.Takes group key tier outcome where
  tidy := fun htidy ↦ h.tidy ((less_of_eq hcache habsences).tidy htidy)
  entries := hcache ▸ h.entries
  marks := by
    unfold Marks
    rw [← habsences]
    exact h.marks

/-- An answer that is neither a value nor an absence leaves nothing. -/
theorem Takes.less {fault : Fault} (h : after.Takes group key tier (.error fault))
    (hfault : fault.isNotFound = false) : after.Less group where
  tidy := h.tidy
  entries := fun other entry hmem ↦ (h.entries other entry hmem).resolve_right
    fun ⟨_, _, hok⟩ ↦ nomatch hok
  marks := by
    intro entry hmarks
    refine (h.marks entry hmarks).resolve_right ?_
    rintro ⟨-, absent, heq⟩
    cases heq
    cases hfault

/-- What is stored is in the tier that it is meant for. -/
theorem store_takes {value : Value} (hcache : after.cache = (group.cache.add key value tier).cache)
    (habsences : after.absences = group.absences) : after.Takes group key tier (.ok value) where
  tidy := by
    intro h
    obtain ⟨-, hsound, hwithin⟩ := h.sound.apply h.within (.add key value tier)
    exact ⟨hcache ▸ hsound, hcache ▸ hwithin, habsences ▸ h.absences⟩
  entries := by
    intro other entry hmem
    rw [hcache] at hmem
    refine (Tiered.mem_entries_of_add hmem).imp_right ?_
    rintro ⟨rfl, rfl⟩
    exact ⟨rfl, rfl, rfl⟩
  marks := by
    rintro entry ⟨absences, hsome, hmem⟩
    exact .inl ⟨absences, habsences ▸ hsome, hmem⟩

/-- Remembering the absence of a key leaves the tiers alone. -/
theorem rememberAbsent_takes (group : Group) (key : String) (now : Millis) (tier : Tier)
    (absent : String) :
    (group.rememberAbsent key now).Takes group key tier (.error (.notFound absent)) := by
  unfold rememberAbsent
  split
  · next absences ttl hsome httl =>
    refine ⟨?_, fun _ _ hmem ↦ .inl hmem, ?_⟩
    · intro h
      refine ⟨h.sound, h.within, ?_⟩
      rintro _ ⟨⟩
      obtain ⟨hexact, hfits⟩ := h.absences absences hsome
      rw [Recency.add_budget]
      exact hexact.add hfits key _
    · rintro entry ⟨_, ⟨⟩, hmem⟩
      rcases Recency.mem_add hmem with ⟨hold, -⟩ | rfl
      · exact .inl ⟨absences, hsome, hold⟩
      · exact .inr ⟨rfl, absent, rfl⟩
  · exact takes_of_eq rfl rfl

theorem takeLoaded_takes (group : Group) (key : String) (now : Millis) (answer : LoadAnswer) :
    (group.takeLoaded key now answer).2.Takes group key .main (LoadAnswer.outcome key answer) := by
  rcases answer with (_ | reason) | value
  · exact (rememberAbsent_takes _ key now .main key).congr rfl rfl
  · exact takes_of_eq rfl rfl
  · exact store_takes rfl rfl

theorem takeFetched_takes (group : Group) (key : String) (now : Millis) (answer : Outcome) :
    (group.takeFetched key now answer).2.Takes group key .hot answer := by
  cases answer with
  | ok value =>
      unfold takeFetched
      dsimp only
      split
      · exact store_takes rfl rfl
      · exact takes_of_eq rfl rfl
  | error fault =>
      by_cases hown : fault.isNotFound = false ∧ fault ≠ .cancelled
      · rw [group.takeFetched_own key now hown.1 hown.2]
        split <;> exact takes_of_eq rfl rfl
      · cases fault with
        | notFound absent => exact group.rememberAbsent_takes key now .hot absent
        | cancelled => exact takes_of_eq rfl rfl
        | _ => exact absurd ⟨rfl, by simp⟩ hown

/-! ## Where values come from -/

/-- A value that a group answers by itself is live in one of its tiers. -/
theorem live_of_consult {now : Millis} {cancelled : Bool} {value : Value}
    (h : group.consult key now cancelled = (some (.ok value), after)) :
    ∃ tier, group.cache.Live tier key value now := by
  unfold consult at h
  dsimp only at h
  split at h
  · cases h
  · split at h
    · next found tier hresult =>
      cases h
      obtain ⟨tier, hmem⟩ := (Tiered.holds_of_get hresult).exists_entry
      exact ⟨tier, hmem, Tiered.unexpired_of_get hresult⟩
    · split at h <;> cases h

/-- A value that ends the work of a leader whose fetch is answered is the answer. -/
theorem eq_ok_of_takeFetched {now : Millis} {answer : Outcome} {value : Value}
    (h : (group.takeFetched key now answer).1 = .done (.ok value)) : answer = .ok value := by
  cases answer with
  | ok found =>
      cases h
      rfl
  | error fault =>
      by_cases hown : fault.isNotFound = false ∧ fault ≠ .cancelled
      · rw [group.takeFetched_own key now hown.1 hown.2] at h
        dsimp only at h
        split at h <;> cases h
      · cases fault with
        | cancelled | notFound => cases h
        | _ => exact absurd ⟨rfl, by simp⟩ hown

/-- No tier holds a key that was taken out. -/
theorem ne_of_mem_remove {entry : Entry} (h : entry ∈ (group.remove key).2.cache.entries tier) :
    entry.key ≠ key := by
  cases tier with
  | main => exact Recency.ne_of_mem_remove h
  | hot => exact Recency.ne_of_mem_remove h

/-! ## New groups -/

/-- A new group holds and remembers nothing. -/
theorem create_bare (name : String) (settings : GroupSettings) :
    (create name settings).Tidy ∧ (∀ tier, (create name settings).cache.entries tier = []) ∧
      ∀ entry, ¬(create name settings).Marks entry := by
  refine ⟨⟨Tiered.sound_empty _, Nat.zero_le _, ?_⟩, ?_, ?_⟩
  · intro absences hsome
    obtain ⟨ttl, -, rfl⟩ := Option.map_eq_some_iff.1 hsome
    exact ⟨Recency.exact_empty _, Nat.zero_le _⟩
  · intro tier
    cases tier <;> rfl
  · rintro entry ⟨absences, hsome, hmem⟩
    obtain ⟨ttl, -, rfl⟩ := Option.map_eq_some_iff.1 hsome
    cases hmem

end ReadThrough.Group
