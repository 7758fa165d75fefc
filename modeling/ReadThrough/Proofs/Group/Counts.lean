import ReadThrough.Proofs.Cache.Turnover
import ReadThrough.Proofs.Group.Contents

/-!
# The counters of a group

What a group counts itself agrees with what its tiers count and hold (`Balanced`): every get that
was not refused was a hit of a tier, a hit of a remembered absence or a load, each tier was read
where the one before it had nothing, and every entry that was inserted is there or its departure was
counted. Each part of a get keeps this so.
-/

namespace ReadThrough

/-- The fetches that gave a value or failed. -/
def GroupCounts.fetched (counts : GroupCounts) : Nat :=
  counts.peerLoads + counts.peerErrors

/-- The loader calls that were answered. -/
def GroupCounts.loaded (counts : GroupCounts) : Nat :=
  counts.localLoads + counts.localLoadErrors

/-- Departures are counted by their reasons. -/
theorem GroupCounts.departAll_eq (counts : GroupCounts) (departures : List Departure) :
    counts.departAll departures =
      { counts with
        evictions := counts.evictions + departed .evicted departures
        removals := counts.removals + departed .removed departures
        expirations := counts.expirations + departed .expired departures } := by
  induction departures generalizing counts with
  | nil => rfl
  | cons departure rest ih =>
      rw [departAll, List.foldl_cons]
      refine (ih (counts.depart departure)).trans ?_
      obtain ⟨key, value, reason⟩ := departure
      cases reason <;> simp [depart, departed, Nat.add_assoc, Nat.add_comm]

namespace Group

/-- The counters of a group agree with each other, and with what its tiers count and hold, where a
number of its gets were refused and a number of entries were inserted. -/
structure Balanced (group : Group) (refused inserted : Nat) : Prop where
  budget : group.cache.policy.cacheBytes = group.settings.cacheBytes
  gets : group.counts.gets =
    group.counts.cacheHits + group.counts.negativeHits + group.counts.loads + refused
  hits : group.counts.cacheHits = group.cache.mainReads.hits + group.cache.hotReads.hits
  mainReads : 0 < group.settings.cacheBytes →
    group.cache.mainReads.gets + refused = group.counts.gets
  hotReads : group.cache.hotReads.gets + group.cache.mainReads.hits = group.cache.mainReads.gets
  evictions : group.counts.evictions = group.cache.main.evictions + group.cache.hot.evictions
  entries : inserted = group.cache.size + group.counts.evictions + group.counts.removals +
    group.counts.expirations

/-- Whether an answer that comes in for a key inserts an entry: it is a value that the gate lets
through if it is for the hot tier, that fits there, and the tier has none of the key. -/
def inserts (group : Group) (key : String) (tier : Tier) : Outcome → Bool
  | .ok value => (tier = .main || group.gate.decideNext.1) && group.cache.inserts key value tier
  | .error _ => false

variable {group after : Group} {refused inserted : Nat}

theorem balanced_create (name : String) (settings : GroupSettings) :
    (create name settings).Balanced 0 0 :=
  ⟨rfl, rfl, rfl, fun _ ↦ rfl, rfl, rfl, rfl⟩

/-- What came into the tiers and left them keeps a group in balance, once the departures are
counted, as far as evictions and entries go. -/
theorem Balanced.turnover (h : group.Balanced refused inserted) {departures : List Departure}
    {more : Nat} (hturnover : group.cache.Turnover more departures after.cache)
    (hcounts : after.counts.evictions = group.counts.evictions + departed .evicted departures ∧
      after.counts.removals = group.counts.removals + departed .removed departures ∧
      after.counts.expirations = group.counts.expirations + departed .expired departures) :
    after.counts.evictions = after.cache.main.evictions + after.cache.hot.evictions ∧
      inserted + more = after.cache.size + after.counts.evictions + after.counts.removals +
        after.counts.expirations := by
  obtain ⟨hevicted, hremoved, hexpired⟩ := hcounts
  have hentries := h.entries
  have hevictions := h.evictions
  have hsize := hturnover.size
  have hevictions' := hturnover.evictions
  rw [length_eq_departed] at hsize
  omega

/-- An operation that reads no tier keeps a group in balance. -/
theorem Balanced.absorb (h : group.Balanced refused inserted) {α : Type} {step : Tiered.Step α}
    {more : Nat} (hturnover : group.cache.Turnover more step.departures step.cache)
    (hpolicy : step.cache.policy = group.cache.policy)
    (hreads : step.cache.mainReads = group.cache.mainReads ∧
      step.cache.hotReads = group.cache.hotReads) :
    (group.absorb step).Balanced refused (inserted + more) := by
  obtain ⟨hmain, hhot⟩ := hreads
  have hcounts := group.counts.departAll_eq step.departures
  have hturnover' : group.cache.Turnover more step.departures (group.absorb step).cache :=
    hturnover
  obtain ⟨hevictions, hentries⟩ := h.turnover hturnover' ⟨by simp [Group.absorb, hcounts],
    by simp [Group.absorb, hcounts], by simp [Group.absorb, hcounts]⟩
  refine ⟨?_, ?_, ?_, ?_, ?_, hevictions, hentries⟩
  all_goals simp only [Group.absorb, hcounts, hpolicy, hmain, hhot]
  · exact h.budget
  · exact h.gets
  · exact h.hits
  · exact h.mainReads
  · exact h.hotReads

/-- A get that reads the tiers keeps a group in balance if it is counted as a hit when they have
something, and as one of the other two when they have nothing. -/
theorem Balanced.read (h : group.Balanced refused inserted) (hsound : group.cache.Sound)
    (key : String) (now : Millis) (hcache : after.cache = (group.cache.get key now).cache)
    (hsettings : after.settings = group.settings)
    (hgets : after.counts.gets = group.counts.gets + 1)
    (hhits : after.counts.cacheHits =
      group.counts.cacheHits + (group.cache.get key now).result.isSome.toNat)
    (hmisses : after.counts.negativeHits + after.counts.loads +
        (group.cache.get key now).result.isSome.toNat =
      group.counts.negativeHits + group.counts.loads + 1)
    (hcounts :
      let departures := (group.cache.get key now).departures
      after.counts.evictions = group.counts.evictions + departed .evicted departures ∧
        after.counts.removals = group.counts.removals + departed .removed departures ∧
        after.counts.expirations = group.counts.expirations + departed .expired departures) :
    after.Balanced refused inserted := by
  obtain ⟨hmain, htiers, hhot⟩ := group.cache.get_reads key now
  have hturnover := Tiered.turnover_get hsound key now
  rw [← hcache] at hmain htiers hhot hturnover
  obtain ⟨hevictions, hentries⟩ := h.turnover hturnover hcounts
  obtain ⟨hbudget, hgets', hhits', hmain', hhot', -, -⟩ := h
  refine ⟨?_, ?_, ?_, ?_, ?_, hevictions, hentries⟩
  · rw [hcache, hsettings, (group.cache.get_below key now).policy, hbudget]
  · omega
  · omega
  · intro hpositive
    rw [hsettings, ← hbudget] at hpositive
    rw [decide_eq_true (Nat.ne_of_gt hpositive), Bool.toNat_true] at hmain
    have hreads := hmain' (hbudget ▸ hpositive)
    omega
  · omega

/-- Consulting a group keeps it in balance: the get is refused, or a hit or a load. -/
theorem Balanced.consult (h : group.Balanced refused inserted) (hsound : group.cache.Sound)
    (key : String) (now : Millis) (cancelled : Bool) :
    (group.consult key now cancelled).2.Balanced (refused + cancelled.toNat) inserted := by
  unfold Group.consult
  dsimp only
  cases cancelled with
  | true =>
      obtain ⟨hbudget, hgets, hhits, hmain, hhot, hevictions, hentries⟩ := h
      refine ⟨hbudget, ?_, hhits, fun hpositive ↦ ?_, hhot, hevictions, hentries⟩
      · simp only [if_true, count, Bool.toNat_true]
        omega
      · have hreads := hmain hpositive
        simp only [if_true, count, Bool.toNat_true]
        omega
  | false =>
      rw [if_neg Bool.false_ne_true, Bool.toNat_false, Nat.add_zero]
      have hcounts (counts : GroupCounts) :=
        counts.departAll_eq (group.cache.get key now).departures
      split
      · next value tier hresult =>
        replace hresult : (group.cache.get key now).result = some (value, tier) := hresult
        refine h.read hsound key now rfl rfl ?_ ?_ ?_ ?_
        all_goals simp [count, Group.absorb, hcounts, hresult]
      · next hresult =>
        replace hresult : (group.cache.get key now).result = none := hresult
        split
        all_goals
          refine h.read hsound key now rfl rfl ?_ ?_ ?_ ?_
          all_goals simp [count, Group.absorb, hcounts, hresult]
          try omega

/-- Counters that no balance is struck with do not matter. -/
theorem Balanced.congr (h : group.Balanced refused inserted) (hcache : after.cache = group.cache)
    (hsettings : after.settings = group.settings)
    (hgets : after.counts.gets = group.counts.gets ∧
      after.counts.cacheHits = group.counts.cacheHits ∧
      after.counts.negativeHits = group.counts.negativeHits ∧
      after.counts.loads = group.counts.loads)
    (hdepartures : after.counts.evictions = group.counts.evictions ∧
      after.counts.removals = group.counts.removals ∧
      after.counts.expirations = group.counts.expirations) :
    after.Balanced refused inserted := by
  obtain ⟨hgets, hhits, hnegative, hloads⟩ := hgets
  obtain ⟨hevictions, hremovals, hexpirations⟩ := hdepartures
  obtain ⟨hbudget, hgets', hhits', hmain, hhot, hevictions', hentries⟩ := h
  refine ⟨?_, ?_, ?_, ?_, ?_, ?_, ?_⟩
  all_goals simpa only [hcache, hsettings, hgets, hhits, hnegative, hloads, hevictions, hremovals,
    hexpirations]

/-- Storing a value in a tier keeps a group in balance. -/
theorem Balanced.store (h : group.Balanced refused inserted) (hsound : group.cache.Sound)
    (key : String) (value : Value) (tier : Tier) :
    (group.absorb (group.cache.add key value tier)).Balanced refused
      (inserted + (group.cache.inserts key value tier).toNat) :=
  h.absorb (Tiered.turnover_add hsound key value tier) (Tiered.add_policy _ _ _ _)
    (Tiered.add_reads _ _ _ _)

theorem Balanced.rememberAbsent (h : group.Balanced refused inserted) (key : String)
    (now : Millis) : (group.rememberAbsent key now).Balanced refused inserted := by
  unfold Group.rememberAbsent
  split
  · exact h.congr rfl rfl ⟨rfl, rfl, rfl, rfl⟩ ⟨rfl, rfl, rfl⟩
  · exact h

/-- Taking in the answer of a loader keeps a group in balance. -/
theorem Balanced.takeLoaded (h : group.Balanced refused inserted) (hsound : group.cache.Sound)
    (key : String) (now : Millis) (answer : LoadAnswer) :
    (group.takeLoaded key now answer).2.Balanced refused
      (inserted + (group.inserts key .main (LoadAnswer.outcome key answer)).toNat) := by
  have hcounted (change : GroupCounts → GroupCounts)
      (hchange : change = (fun c ↦ { c with localLoads := c.localLoads + 1 }) ∨
        change = fun c ↦ { c with localLoadErrors := c.localLoadErrors + 1 }) :
      (group.count change).Balanced refused inserted := by
    rcases hchange with rfl | rfl <;> exact h.congr rfl rfl ⟨rfl, rfl, rfl, rfl⟩ ⟨rfl, rfl, rfl⟩
  rcases answer with (_ | reason) | value
  · exact (hcounted _ (.inr rfl)).rememberAbsent key now
  · exact hcounted _ (.inr rfl)
  · exact (hcounted _ (.inl rfl)).store hsound key value .main

/-- Taking in the answer of a peer keeps a group in balance. -/
theorem Balanced.takeFetched (h : group.Balanced refused inserted) (hsound : group.cache.Sound)
    (key : String) (now : Millis) (answer : Outcome) :
    (group.takeFetched key now answer).2.Balanced refused
      (inserted + (group.inserts key .hot answer).toNat) := by
  cases answer with
  | ok value =>
      have hcounted : Balanced
          { group with
            counts := { group.counts with peerLoads := group.counts.peerLoads + 1 }
            gate := group.gate.decideNext.2 } refused inserted :=
        h.congr rfl rfl ⟨rfl, rfl, rfl, rfl⟩ ⟨rfl, rfl, rfl⟩
      unfold Group.takeFetched Group.inserts
      dsimp only [count]
      split
      · next hadmitted =>
        rw [hadmitted, Bool.or_true, Bool.true_and]
        exact hcounted.store hsound key value .hot
      · next hdenied =>
        rw [Bool.not_eq_true] at hdenied
        rw [hdenied]
        exact hcounted
  | error fault =>
      show (group.takeFetched key now (.error fault)).2.Balanced refused inserted
      by_cases hown : fault.isNotFound = false ∧ fault ≠ .cancelled
      · rw [group.takeFetched_own key now hown.1 hown.2]
        dsimp only
        split <;> exact h.congr rfl rfl ⟨rfl, rfl, rfl, rfl⟩ ⟨rfl, rfl, rfl⟩
      · cases fault with
        | notFound absent => exact h.rememberAbsent key now
        | cancelled => exact h
        | _ => exact absurd ⟨rfl, by simp⟩ hown

/-- Removing a key keeps a group in balance. -/
theorem Balanced.remove (h : group.Balanced refused inserted) (hsound : group.cache.Sound)
    (key : String) : (group.remove key).2.Balanced refused inserted := by
  have hforgotten : Balanced
      { group with
        absences := group.absences.map fun absences : Recency ↦ (absences.remove key).cache }
      refused inserted := h.congr rfl rfl ⟨rfl, rfl, rfl, rfl⟩ ⟨rfl, rfl, rfl⟩
  exact hforgotten.absorb (Tiered.turnover_remove hsound key) rfl ⟨rfl, rfl⟩

/-! ## Calls -/

/-- Consulting a group counts no call, and a load where a fill is needed. -/
theorem consult_calls (group : Group) (key : String) (now : Millis) (cancelled : Bool) :
    let consulted := group.consult key now cancelled
    consulted.2.counts.fetched = group.counts.fetched ∧
      consulted.2.counts.loaded = group.counts.loaded ∧
      consulted.2.counts.loads = group.counts.loads + consulted.1.isNone.toNat := by
  unfold consult
  dsimp only
  split
  · exact ⟨rfl, rfl, rfl⟩
  · split
    · simp [count, Group.absorb, GroupCounts.departAll_eq, GroupCounts.fetched, GroupCounts.loaded]
    · split <;>
        simp [count, Group.absorb, GroupCounts.departAll_eq, GroupCounts.fetched,
          GroupCounts.loaded]

theorem rememberAbsent_counts (group : Group) (key : String) (now : Millis) :
    (group.rememberAbsent key now).counts = group.counts := by
  unfold Group.rememberAbsent
  split <;> rfl

/-- The answer of a loader is counted as one. -/
theorem takeLoaded_calls (group : Group) (key : String) (now : Millis) (answer : LoadAnswer) :
    let after := (group.takeLoaded key now answer).2
    after.counts.fetched = group.counts.fetched ∧
      after.counts.loaded = group.counts.loaded + 1 ∧ after.counts.loads = group.counts.loads := by
  rcases answer with (_ | reason) | value
  · simp only [takeLoaded, rememberAbsent_counts]
    exact ⟨rfl, rfl, rfl⟩
  · exact ⟨rfl, rfl, rfl⟩
  · simp [takeLoaded, count, Group.absorb, GroupCounts.departAll_eq, GroupCounts.fetched,
      GroupCounts.loaded]
    omega

/-- The answer of a peer is counted once at most. -/
theorem takeFetched_calls (group : Group) (key : String) (now : Millis) (answer : Outcome) :
    let after := (group.takeFetched key now answer).2
    after.counts.fetched ≤ group.counts.fetched + 1 ∧
      after.counts.loaded = group.counts.loaded ∧ after.counts.loads = group.counts.loads := by
  cases answer with
  | ok value =>
      unfold takeFetched
      dsimp only
      split
      · simp [count, Group.absorb, GroupCounts.departAll_eq, GroupCounts.fetched,
          GroupCounts.loaded]
        omega
      · refine ⟨?_, rfl, rfl⟩
        simp [count, GroupCounts.fetched]
        omega
  | error fault =>
      by_cases hown : fault.isNotFound = false ∧ fault ≠ .cancelled
      · rw [group.takeFetched_own key now hown.1 hown.2]
        dsimp only
        split <;> exact ⟨Nat.le_refl _, rfl, rfl⟩
      · cases fault with
        | notFound absent => simp [takeFetched, rememberAbsent_counts]
        | cancelled => exact ⟨Nat.le_succ _, rfl, rfl⟩
        | _ => exact absurd ⟨rfl, by simp⟩ hown

theorem remove_calls (group : Group) (key : String) :
    let after := (group.remove key).2
    after.counts.fetched = group.counts.fetched ∧ after.counts.loaded = group.counts.loaded ∧
      after.counts.loads = group.counts.loads := by
  simp [Group.remove, Group.absorb, GroupCounts.departAll_eq, GroupCounts.fetched,
    GroupCounts.loaded]

end Group

end ReadThrough
