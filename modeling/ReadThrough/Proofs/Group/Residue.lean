import ReadThrough.Proofs.Group.Contents

/-!
# What a failed get leaves in its group

The parts of a get that come to no value leave the entries of the tiers as they are, in the same
order, except that an expired one of the key may be gone. They remember nothing unless the key was
found not to exist. `Spared` says so, and parts of one get that follow each other can be put
together by `Spared.trans`.
-/

namespace ReadThrough

/-- What a leader's work has come to, if it has come to something. -/
def Group.Fetched.outcome? : Group.Fetched → Option Outcome
  | .done outcome => some outcome
  | .fallBack _ => none

namespace Group

/-- The entries of a tier are those that there were, in the same order, or those of other keys if
there was an expired one of the key. -/
def Expires (after before : List Entry) (key : String) (now : Millis) : Prop :=
  after = before ∨ after = before.filter (fun entry ↦ entry.key ≠ key) ∧
    ∃ entry ∈ before, entry.key = key ∧ entry.value.expired now = true

/-- A get for a key that came to no value left a group with what another one held and remembered, an
expired entry of the key aside. If it came to the absence of the key, that may be remembered. -/
structure Spared (after group : Group) (key : String) (now : Millis) (result : Option Outcome) :
    Prop where
  settings : after.settings = group.settings
  entries : ∀ tier, Expires (after.cache.entries tier) (group.cache.entries tier) key now
  marks : ∀ entry, after.Marks entry → group.Marks entry ∨ entry.key = key ∧
    result = some (.error (.notFound key)) ∧ group.settings.negativeTtl.isSome

variable {group middle after : Group} {key : String} {now since : Millis}
  {result : Option Outcome}

theorem Expires.trans {first second third : List Entry} (h : Expires second third key now)
    (h' : Expires first second key since) (hle : now ≤ since) : Expires first third key since := by
  rcases h with rfl | ⟨rfl, entry, hmem, hkey, hexpired⟩
  · exact h'
  · refine .inr ⟨?_, entry, hmem, hkey, Value.expired_of_le hle hexpired⟩
    rcases h' with rfl | ⟨rfl, other, hother, hsame, -⟩
    · rfl
    · -- no entry of the key is left to expire
      have hne := (List.mem_filter.1 hother).2
      simp [hsame] at hne

/-- What one part of a get leaves is what another one finds. -/
theorem Spared.trans (h : middle.Spared group key now none)
    (h' : after.Spared middle key since result) (hle : now ≤ since) :
    after.Spared group key since result where
  settings := h'.settings.trans h.settings
  entries := fun tier ↦ (h.entries tier).trans (h'.entries tier) hle
  marks := by
    intro entry hmarks
    rcases h'.marks entry hmarks with hold | hnew
    · exact .inl ((h.marks entry hold).resolve_right fun ⟨_, hresult, _⟩ ↦ nomatch hresult)
    · exact .inr (h.settings ▸ hnew)

theorem spared_of_eq (hsettings : after.settings = group.settings)
    (hcache : after.cache = group.cache) (habsences : after.absences = group.absences) :
    after.Spared group key now result where
  settings := hsettings
  entries := fun _ ↦ .inl (hcache ▸ rfl)
  marks := fun entry hmarks ↦ .inl ((less_of_eq hcache habsences).marks entry hmarks)

/-- Only what a group holds and remembers at the end matters. -/
theorem Spared.congr (h : middle.Spared group key now result)
    (hsettings : after.settings = middle.settings) (hcache : after.cache = middle.cache)
    (habsences : after.absences = middle.absences) : after.Spared group key now result where
  settings := hsettings.trans h.settings
  entries := hcache ▸ h.entries
  marks := fun entry hmarks ↦ h.marks entry ((less_of_eq hcache habsences).marks entry hmarks)

/-- A get that is known to have come to no value is so later. -/
theorem Spared.mono (h : after.Spared group key now result) (hle : now ≤ since) :
    after.Spared group key since result where
  settings := h.settings
  entries := fun tier ↦ (h.entries tier).imp_right fun ⟨heq, entry, hmem, hkey, hexpired⟩ ↦
    ⟨heq, entry, hmem, hkey, Value.expired_of_le hle hexpired⟩
  marks := h.marks

/-! ## Parts of a get -/

/-- A read of one tier that finds nothing takes out at most an expired entry. -/
theorem expires_of_get {cache : Recency} (h : (cache.get key now).result = none) :
    Expires (cache.get key now).cache.entries cache.entries key now := by
  unfold Recency.get at h ⊢
  cases hfind : cache.find? key with
  | none => exact .inl rfl
  | some entry =>
      obtain ⟨hmem, rfl⟩ := Recency.of_find? hfind
      simp only [hfind] at h ⊢
      split
      · next hexpired => exact .inr ⟨rfl, entry, hmem, rfl, hexpired⟩
      · next hlive => simp [hlive] at h

/-- A read of both tiers that finds nothing takes out at most an expired entry of each. -/
theorem expires_of_lookup {cache : Tiered} (h : (cache.get key now).result = none) (tier : Tier) :
    Expires ((cache.get key now).cache.entries tier) (cache.entries tier) key now := by
  unfold Tiered.get at h ⊢
  split
  · exact .inl rfl
  · next hsome =>
    simp only [hsome, if_false] at h
    dsimp only at h ⊢
    split
    · next value hmain => simp [hmain] at h
    · next hmain =>
      simp only [hmain, Option.map_eq_none_iff] at h
      cases tier with
      | main => exact expires_of_get hmain
      | hot => exact expires_of_get h

/-- A get that is not answered with a value from the tiers spares them. -/
theorem consult_spared {cancelled : Bool} {answer : Option Outcome}
    (h : group.consult key now cancelled = (answer, after)) :
    (∃ value, answer = some (.ok value)) ∨ after.Spared group key now answer := by
  have hless := group.consult_less key now cancelled
  rw [h] at hless
  have hmarks {result : Option Outcome} (entry : Entry) (hmarks : after.Marks entry) :
      group.Marks entry ∨ entry.key = key ∧ result = some (.error (.notFound key)) ∧
        group.settings.negativeTtl.isSome := .inl (hless.marks entry hmarks)
  unfold consult at h
  dsimp only at h
  split at h
  · cases h
    exact .inr (spared_of_eq rfl rfl rfl)
  · split at h
    · next value tier _ =>
      cases h
      exact .inl ⟨value, rfl⟩
    · next hmiss =>
      split at h <;> cases h <;> exact .inr ⟨rfl, expires_of_lookup hmiss, hmarks⟩

/-- An absence is remembered only where it is set for how long. -/
theorem rememberAbsent_spared (group : Group) (key : String) (now : Millis) :
    (group.rememberAbsent key now).Spared group key now (some (.error (.notFound key))) := by
  have htakes := group.rememberAbsent_takes key now .main key
  unfold rememberAbsent at htakes ⊢
  split
  · next absences ttl hsome httl =>
    simp only [hsome, httl] at htakes
    refine ⟨rfl, fun _ ↦ .inl rfl, fun entry hmarks ↦ ?_⟩
    refine (htakes.marks entry hmarks).imp_right fun ⟨hkey, _⟩ ↦ ⟨hkey, rfl, ?_⟩
    rw [httl]
    rfl
  · exact spared_of_eq rfl rfl rfl

/-- An answer of the loader that is no value spares the tiers. -/
theorem takeLoaded_spared (group : Group) (key : String) (now : Millis) (answer : LoadAnswer) :
    (∃ value, (group.takeLoaded key now answer).1 = .ok value) ∨
      (group.takeLoaded key now answer).2.Spared group key now
        (some (group.takeLoaded key now answer).1) := by
  rcases answer with (_ | reason) | value
  · right
    have hspared := (group.count fun c ↦
      { c with localLoadErrors := c.localLoadErrors + 1 }).rememberAbsent_spared key now
    exact ⟨hspared.settings, hspared.entries, hspared.marks⟩
  · exact .inr (spared_of_eq rfl rfl rfl)
  · exact .inl ⟨value, rfl⟩

/-- An answer of a peer that is no value spares the tiers. -/
theorem takeFetched_spared (group : Group) (key : String) (now : Millis) (answer : Outcome) :
    (∃ value, (group.takeFetched key now answer).1 = .done (.ok value)) ∨
      (group.takeFetched key now answer).2.Spared group key now
        (group.takeFetched key now answer).1.outcome? := by
  cases answer with
  | ok value => exact .inl ⟨value, rfl⟩
  | error fault =>
      right
      by_cases hown : fault.isNotFound = false ∧ fault ≠ .cancelled
      · rw [group.takeFetched_own key now hown.1 hown.2]
        dsimp only
        split <;> exact spared_of_eq rfl rfl rfl
      · cases fault with
        | notFound absent => exact group.rememberAbsent_spared key now
        | cancelled => exact spared_of_eq rfl rfl rfl
        | _ => exact absurd ⟨rfl, by simp⟩ hown

end Group

end ReadThrough
