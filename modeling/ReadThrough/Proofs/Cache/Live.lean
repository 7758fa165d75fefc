import ReadThrough.Proofs.Cache.Tiered

/-!
# Live entries

An entry is live until its value expires. A cache that counts right finds every live entry, so a
read that finds nothing shows that all entries of the key have expired.
-/

namespace ReadThrough

/-- A value that has not expired by an instant had not before. -/
theorem Value.expired_eq_false_of_le {value : Value} {now later : Millis} (hle : now ≤ later)
    (h : value.expired later = false) : value.expired now = false := by
  unfold Value.expired at h ⊢
  cases hinstant : value.expiresAt with
  | none => rfl
  | some instant =>
      rw [hinstant] at h
      simp only [Option.any_some, decide_eq_false_iff_not] at h ⊢
      exact fun hpast ↦ h (Nat.le_trans hpast hle)

/-- A value that has expired stays so. -/
theorem Value.expired_of_le {value : Value} {now later : Millis} (hle : now ≤ later)
    (h : value.expired now = true) : value.expired later = true := by
  by_contra hlater
  exact absurd (expired_eq_false_of_le hle (Bool.eq_false_iff.2 hlater)) (by simp [h])

namespace Recency

/-- A cache holds a value for a key that has not expired. -/
def Live (cache : Recency) (key : String) (value : Value) (now : Millis) : Prop :=
  ⟨key, value⟩ ∈ cache.entries ∧ value.expired now = false

instance (cache : Recency) (key : String) (value : Value) (now : Millis) :
    Decidable (cache.Live key value now) :=
  inferInstanceAs (Decidable (_ ∧ _))

variable {cache : Recency} {key : String} {value : Value} {now : Millis}

/-- What is seen has not expired. -/
theorem unexpired_of_peek (h : cache.peek key now = some value) : value.expired now = false := by
  unfold peek at h
  split at h
  · cases h
  · split at h
    · cases h
    · next hlive =>
      cases h
      exact Bool.eq_false_iff.2 hlive

/-- What is seen is what is live. -/
theorem peek_eq_some (h : cache.Exact) :
    cache.peek key now = some value ↔ cache.Live key value now := by
  constructor
  · exact fun hpeek ↦ ⟨mem_of_peek hpeek, unexpired_of_peek hpeek⟩
  · rintro ⟨hmem, hlive⟩
    have hfind : cache.find? key = some ⟨key, value⟩ := find?_of_mem h.distinct hmem
    unfold peek
    rw [hfind]
    simp [hlive]

end Recency

namespace Tiered

/-- The entries of one tier. -/
def entries (cache : Tiered) : Tier → List Entry
  | .main => cache.main.entries
  | .hot => cache.hot.entries

/-- A tier holds a value for a key that has not expired. -/
def Live (cache : Tiered) (tier : Tier) (key : String) (value : Value) (now : Millis) : Prop :=
  ⟨key, value⟩ ∈ cache.entries tier ∧ value.expired now = false

instance (cache : Tiered) (tier : Tier) (key : String) (value : Value) (now : Millis) :
    Decidable (cache.Live tier key value now) :=
  inferInstanceAs (Decidable (_ ∧ _))

variable {cache after : Tiered} {tier : Tier} {key : String} {value : Value} {now : Millis}

/-- A pair below another one has no other entries. -/
theorem Below.entries (h : after.Below cache) (tier : Tier) :
    ∀ entry ∈ after.entries tier, entry ∈ cache.entries tier := by
  cases tier with
  | main => exact h.main.entries
  | hot => exact h.hot.entries

/-- What is held is in one of the tiers. -/
theorem Holds.exists_entry (h : cache.Holds key value) :
    ∃ tier, ⟨key, value⟩ ∈ cache.entries tier :=
  h.elim (fun hmain ↦ ⟨.main, hmain⟩) fun hhot ↦ ⟨.hot, hhot⟩

/-- Nothing is held under a budget of zero. -/
theorem entries_eq_nil (h : cache.Sound) (hwithin : cache.Within)
    (hzero : cache.policy.cacheBytes = 0) (tier : Tier) : cache.entries tier = [] := by
  have hnone : ∀ {entries : List Entry}, charge entries = 0 → entries = [] := by
    intro entries hcharge
    cases entries with
    | nil => rfl
    | cons entry rest =>
        -- every entry is charged for its own keeping
        rw [charge_cons, Entry.size, entrySize, entryOverhead] at hcharge
        omega
  unfold Within at hwithin
  rw [h.mainExact.counted, h.hotExact.counted] at hwithin
  have hmain : charge cache.main.entries = 0 := by omega
  have hhot : charge cache.hot.entries = 0 := by omega
  cases tier with
  | main => exact hnone hmain
  | hot => exact hnone hhot

/-- What is seen in a tier has not expired. -/
theorem unexpired_of_peek (h : cache.peek key now = some (value, tier)) :
    value.expired now = false := by
  unfold peek at h
  split at h
  · cases h
  · split at h
    · next found hmain =>
      cases h
      exact Recency.unexpired_of_peek hmain
    · obtain ⟨found, hhot, heq⟩ := Option.map_eq_some_iff.1 h
      cases heq
      exact Recency.unexpired_of_peek hhot

/-- What is read from a tier has not expired. -/
theorem unexpired_of_get (h : (cache.get key now).result = some (value, tier)) :
    value.expired now = false :=
  unexpired_of_peek (cache.get_result key now ▸ h)

/-- What is seen is live. -/
theorem live_of_peek (h : cache.Sound) (hpeek : cache.peek key now = some (value, tier)) :
    cache.Live tier key value now := by
  unfold peek at hpeek
  split at hpeek
  · cases hpeek
  · split at hpeek
    · next found hmain =>
      cases hpeek
      exact (Recency.peek_eq_some h.mainExact).1 hmain
    · obtain ⟨found, hhot, heq⟩ := Option.map_eq_some_iff.1 hpeek
      cases heq
      exact (Recency.peek_eq_some h.hotExact).1 hhot

/-- Where nothing is seen, nothing is live. -/
theorem not_live_of_peek (h : cache.Sound) (hwithin : cache.Within)
    (hpeek : cache.peek key now = none) (tier : Tier) (value : Value) :
    ¬cache.Live tier key value now := by
  rintro ⟨hmem, hlive⟩
  unfold peek at hpeek
  split at hpeek
  · next hzero =>
    rw [entries_eq_nil h hwithin hzero] at hmem
    cases hmem
  · split at hpeek
    · cases hpeek
    · next hmain =>
      cases tier with
      | main =>
          rw [(Recency.peek_eq_some h.mainExact).2 ⟨hmem, hlive⟩] at hmain
          cases hmain
      | hot =>
          rw [(Recency.peek_eq_some h.hotExact).2 ⟨hmem, hlive⟩] at hpeek
          cases hpeek

/-- Storing leaves the new value in its tier, and entries that were there. -/
theorem mem_entries_of_add {entry : Entry} {other : Tier}
    (h : entry ∈ (cache.add key value tier).cache.entries other) :
    entry ∈ cache.entries other ∨ entry = ⟨key, value⟩ ∧ other = tier := by
  unfold add at h
  split at h
  · exact .inl h
  · have hplaced := (balance_below _).entries other entry h
    cases tier <;> cases other
    · exact (Recency.mem_add hplaced).imp And.left fun heq ↦ ⟨heq, rfl⟩
    · exact .inl ((cache.hot.remove_below key).entries entry hplaced)
    · exact .inl ((cache.main.remove_below key).entries entry hplaced)
    · exact (Recency.mem_add hplaced).imp And.left fun heq ↦ ⟨heq, rfl⟩

end Tiered

end ReadThrough
