import ReadThrough.Proofs.Cache.Eviction
import ReadThrough.Proofs.Cache.Turnover

/-!
# Departures

Where a cache is never cleared, every entry that was inserted is still held or has departed, once.
`Dismissed` lists the ways to depart: with the value that was stored last, for the reason that goes
with the use, and never because the value was replaced. `departures_told` is the statement on linked
slots, with what their listeners are told.
-/

namespace ReadThrough

/-- How an entry departs by a use of a cache at an instant, given the budget and the entries that
are held before the use. -/
inductive Dismissed (budget : Nat) (held : List Entry) (now : Millis) :
    CacheUse → Departure → Prop where
  /-- a value for another key fits the budget, but not beside all entries of other keys -/
  | crowded {entry : Entry} {key : String} {value : Value} : entry ∈ held → entry.key ≠ key →
      entrySize key value ≤ budget →
      budget < charge (held.filter (·.key ≠ key)) + entrySize key value →
      Dismissed budget held now (.add key value) (entry.departing .evicted)
  /-- the least recently used entry is asked to leave -/
  | oldest {entry : Entry} {rest : List Entry} : held = entry :: rest →
      Dismissed budget held now .evictOldest (entry.departing .evicted)
  | removed {entry : Entry} : entry ∈ held →
      Dismissed budget held now (.remove entry.key) (entry.departing .removed)
  /-- a value for the key itself is larger than the budget -/
  | oversized {entry : Entry} {value : Value} : entry ∈ held →
      budget < entrySize entry.key value →
      Dismissed budget held now (.add entry.key value) (entry.departing .removed)
  /-- the entry is read when it has expired -/
  | expired {entry : Entry} : entry ∈ held → entry.value.expired now = true →
      Dismissed budget held now (.get entry.key) (entry.departing .expired)

/-- What departs was held, with the value that it departs with. -/
theorem Dismissed.mem {budget : Nat} {held : List Entry} {now : Millis} {use : CacheUse}
    {departure : Departure} (h : Dismissed budget held now use departure) :
    ⟨departure.key, departure.value⟩ ∈ held := by
  cases h with
  | crowded hmem | removed hmem | oversized hmem | expired hmem => exact hmem
  | oldest hheld => exact hheld ▸ List.mem_cons_self

/-! ## One use -/

namespace Recency

variable {cache : Recency} {key : String} {value : Value} {now : Millis} {use : CacheUse}
  {departure : Departure}

/-- What departs by a store was held, and is taken out if the value is refused and evicted if it is
not. -/
theorem dismissed_add (h : cache.Exact) (hmem : departure ∈ (cache.add key value).departures) :
    Dismissed cache.budget cache.entries now (.add key value) departure := by
  by_cases hfits : entrySize key value ≤ cache.budget
  · have hcrowded : cache.budget < charge (cache.others key) + entrySize key value := by
      by_contra hroom
      rw [h.add_departures_of_room (Nat.not_lt.1 hroom)] at hmem
      cases hmem
    obtain ⟨evicted, old, hothers, -, hgone⟩ := h.add_entries hfits
    rw [hgone] at hmem
    obtain ⟨entry, hentry, rfl⟩ := List.mem_map.1 hmem
    obtain ⟨hheld, hne⟩ := mem_others.1 (hothers ▸ List.mem_append_left old hentry)
    exact .crowded hheld hne hfits hcrowded
  · rw [add_of_lt (Nat.not_le.1 hfits)] at hmem
    obtain ⟨entry, hheld, rfl, rfl⟩ := mem_remove_departures hmem
    exact .oversized hheld (Nat.not_le.1 hfits)

/-- Every departure is of an entry that was held, for the reason of the use. -/
theorem dismissed_use (h : cache.Exact) (hmem : departure ∈ (keeping.use cache now use).2.2) :
    Dismissed cache.budget cache.entries now use departure := by
  cases use with
  | add key value => exact dismissed_add h hmem
  | get key =>
      change departure ∈ (cache.get key now).departures at hmem
      unfold get at hmem
      split at hmem
      · cases hmem
      · next entry hfind =>
        obtain ⟨hheld, rfl⟩ := of_find? hfind
        split at hmem
        · next hexpired =>
          obtain rfl := List.mem_singleton.1 hmem
          exact .expired hheld hexpired
        · cases hmem
  | remove key =>
      obtain ⟨entry, hheld, rfl, rfl⟩ := mem_remove_departures hmem
      exact .removed hheld
  | evictOldest =>
      change departure ∈ cache.evictOldest.departures at hmem
      unfold evictOldest at hmem
      split at hmem
      · cases hmem
      · next entry rest hentries =>
        obtain rfl := List.mem_singleton.1 hmem
        exact .oldest hentries
  | peek | contains | clear | advance => cases hmem

theorem evictions_use (h : cache.Exact) (now : Millis) (use : CacheUse) :
    (keeping.use cache now use).2.1.evictions =
      cache.evictions + departed .evicted (keeping.use cache now use).2.2 := by
  cases use with
  | add key value => exact (turnover_add h.distinct key value).evictions
  | get key => exact (turnover_get h.distinct key now).evictions
  | remove key => exact (turnover_remove h.distinct key).evictions
  | evictOldest => exact cache.turnover_evictOldest.evictions
  | peek | contains | clear | advance => rfl

/-- An entry that is held after a use was held before, and the use did not store its key, or it is
the one that the use stores. -/
theorem mem_use {entry : Entry} (h : entry ∈ (keeping.use cache now use).2.1.entries) :
    entry ∈ cache.entries ∧ (∀ value, use ≠ .add entry.key value) ∨
      use = .add entry.key entry.value := by
  cases use with
  | add key value =>
      rcases mem_add h with ⟨hold, hne⟩ | rfl
      · refine .inl ⟨hold, fun value heq ↦ ?_⟩
        cases heq
        exact hne rfl
      · exact .inr rfl
  | get key => exact .inl ⟨(cache.get_below key now).entries entry h, fun _ heq ↦ nomatch heq⟩
  | remove key => exact .inl ⟨(cache.remove_below key).entries entry h, fun _ heq ↦ nomatch heq⟩
  | evictOldest => exact .inl ⟨cache.evictOldest_below.entries entry h, fun _ heq ↦ nomatch heq⟩
  | clear => cases h
  | peek | contains | advance => exact .inl ⟨h, fun _ heq ↦ nomatch heq⟩

/-! ## Keys that come in and keys that leave -/

theorem keys_depart (h : cache.keys.Nodup) {entry : Entry} (hmem : entry ∈ cache.entries)
    (reason : Reason) : cache.keys.Perm ((cache.depart entry reason).keys ++ [entry.key]) :=
  ((perm_others h hmem).map Entry.key).trans (List.perm_append_singleton _ _).symm

theorem keys_remove (h : cache.keys.Nodup) (key : String) :
    cache.keys.Perm
      ((cache.remove key).cache.keys ++ (cache.remove key).departures.map Departure.key) := by
  unfold remove
  split
  · exact .of_eq (List.append_nil _).symm
  · next entry hfind => exact keys_depart h (of_find? hfind).1 .removed

theorem keys_get (h : cache.keys.Nodup) (key : String) (now : Millis) :
    cache.keys.Perm
      ((cache.get key now).cache.keys ++ (cache.get key now).departures.map Departure.key) := by
  unfold get
  split
  · exact .of_eq (List.append_nil _).symm
  · next entry hfind =>
    obtain ⟨hmem, rfl⟩ := of_find? hfind
    split
    · exact keys_depart h hmem .expired
    · -- the entry moves to the recent end
      have hmoved := keys_depart h hmem .removed
      simpa [keys, depart] using hmoved

theorem keys_evictOldest (cache : Recency) :
    cache.keys.Perm
      (cache.evictOldest.cache.keys ++ cache.evictOldest.departures.map Departure.key) := by
  unfold evictOldest
  split
  · exact .of_eq (List.append_nil _).symm
  · next entry rest hentries =>
    simp only [keys, hentries]
    exact (List.perm_append_singleton _ _).symm

/-- A key that is stored is there beside the others, whether it was held or not. -/
theorem keys_inserts (h : cache.keys.Nodup) (hfits : entrySize key value ≤ cache.budget) :
    (keeping.inserts cache.budget cache (.add key value) ++ cache.keys).Perm
      (key :: (cache.others key).map Entry.key) := by
  by_cases hheld : key ∈ cache.keys
  · have hnone : keeping.inserts cache.budget cache (.add key value) = [] :=
      if_neg fun hnew ↦ hnew.2 hheld
    obtain ⟨entry, hmem, rfl⟩ := List.mem_map.1 hheld
    rw [hnone, List.nil_append]
    exact (perm_others h hmem).map Entry.key
  · have hnew : keeping.inserts cache.budget cache (.add key value) = [key] :=
      if_pos ⟨hfits, hheld⟩
    rw [hnew, others_eq_of_find? (find?_of_not_mem hheld)]
    exact .refl _

theorem keys_add (h : cache.Exact) (key : String) (value : Value) :
    (keeping.inserts cache.budget cache (.add key value) ++ cache.keys).Perm
      ((cache.add key value).cache.keys ++ (cache.add key value).departures.map Departure.key) := by
  by_cases hfits : entrySize key value ≤ cache.budget
  · obtain ⟨evicted, old, hothers, hkept, hgone⟩ := h.add_entries hfits
    have hgone : (cache.add key value).departures.map Departure.key = evicted.map Entry.key := by
      rw [hgone, List.map_map]
      rfl
    refine (keys_inserts h.distinct hfits).trans ?_
    rw [hothers, keys, hkept, hgone, List.map_append, List.map_append, List.map_singleton,
      List.append_assoc, List.singleton_append]
    exact (List.perm_append_comm.cons key).trans List.perm_middle.symm
  · have hnone : keeping.inserts cache.budget cache (.add key value) = [] :=
      if_neg fun hnew ↦ hfits hnew.1
    rw [hnone, add_of_lt (Nat.not_le.1 hfits)]
    exact keys_remove h.distinct key

/-- What was held and what a use inserts is held or departs. -/
theorem keys_use (h : cache.Exact) (now : Millis) (hkept : use ≠ .clear) :
    (keeping.inserts cache.budget cache use ++ cache.keys).Perm
      ((keeping.use cache now use).2.1.keys ++
        (keeping.use cache now use).2.2.map Departure.key) := by
  cases use with
  | add key value => exact keys_add h key value
  | get key => exact keys_get h.distinct key now
  | remove key => exact keys_remove h.distinct key
  | evictOldest => exact cache.keys_evictOldest
  | clear => exact absurd rfl hkept
  | peek | contains | advance => exact .of_eq (List.append_nil _).symm

end Recency

/-! ## Several uses -/

theorem announce_append (listeners : Nat) (first second : List Departure) :
    announce listeners (first ++ second) = announce listeners first ++ announce listeners second :=
  List.flatMap_append

namespace Keeping

variable {C : Type} (keeping : Keeping C)

theorem run_append (cache : C) (now : Millis) (front rest : List CacheUse) :
    keeping.run cache now (front ++ rest) =
      keeping.run (keeping.run cache now front) (front.foldl CacheUse.clock now) rest := by
  induction front generalizing cache now with
  | nil => rfl
  | cons use front ih => exact ih _ _

/-- All that the listeners are told is of the departures, in order. -/
theorem notices_views (listeners : Nat) (cache : C) (now : Millis) (uses : List CacheUse) :
    (keeping.views listeners cache now uses).flatMap CacheView.notices =
      announce listeners (keeping.departures cache now uses) := by
  induction uses generalizing cache now with
  | nil => rfl
  | cons use rest ih =>
      simp only [views, departures, List.flatMap_cons, announce_append]
      rw [ih]

end Keeping

namespace Recency

/-- An entry that is held has the value that was stored for its key last. -/
theorem latest_of_mem (budget : Nat) (now : Millis) (uses : List CacheUse) {entry : Entry}
    (h : entry ∈ (keeping.run (.empty budget) now uses).entries) :
    CacheUse.latest entry.key uses = some entry.value := by
  induction uses using List.reverseRecOn generalizing entry with
  | nil => cases h
  | append_singleton uses use ih =>
      rw [Keeping.run_append] at h
      rw [CacheUse.latest, List.foldl_concat]
      rcases mem_use h with ⟨hold, hother⟩ | rfl
      · have hlatest := ih hold
        cases use with
        | add key value =>
            have hne : key ≠ entry.key := fun heq ↦ hother value (heq ▸ rfl)
            dsimp only
            rw [if_neg hne]
            exact hlatest
        | _ => exact hlatest
      · exact if_pos rfl

theorem evictions_run {cache : Recency} (h : cache.Exact) (hfits : cache.bytes ≤ cache.budget)
    (now : Millis) (uses : List CacheUse) :
    (keeping.run cache now uses).evictions =
      cache.evictions + departed .evicted (keeping.departures cache now uses) := by
  induction uses generalizing cache now with
  | nil => rfl
  | cons use rest ih =>
      obtain ⟨hexact, hwithin⟩ := sound_use h hfits now use
      have hrest := ih hexact hwithin (use.clock now)
      rw [evictions_use h now use] at hrest
      simp only [Keeping.run, Keeping.departures, departed_append]
      rw [hrest, Nat.add_assoc]

/-- What was held and what was inserted is held or has departed. -/
theorem keys_run {cache : Recency} (h : cache.Exact) (hfits : cache.bytes ≤ cache.budget)
    (now : Millis) (uses : List CacheUse) (hkept : ∀ use ∈ uses, use ≠ .clear) :
    (keeping.insertions cache.budget cache now uses ++ cache.keys).Perm
      ((keeping.run cache now uses).keys ++
        (keeping.departures cache now uses).map Departure.key) := by
  induction uses generalizing cache now with
  | nil => exact .of_eq (List.append_nil _).symm
  | cons use rest ih =>
      obtain ⟨hexact, hwithin⟩ := sound_use h hfits now use
      have hstep := keys_use h now (hkept use List.mem_cons_self)
      have hrest := ih hexact hwithin (use.clock now) fun other hother ↦
        hkept other (List.mem_cons_of_mem _ hother)
      rw [use_budget] at hrest
      simp only [Keeping.run, Keeping.departures, Keeping.insertions, List.map_append]
      rw [List.perm_iff_count] at hstep hrest ⊢
      intro key
      have hstep := hstep key
      have hrest := hrest key
      simp only [List.count_append] at hstep hrest ⊢
      omega

end Recency

namespace Slab

namespace Holds

variable {slab : Slab} {cache : Recency} {order : List Nat}

theorem departures (h : slab.Holds cache order) (now : Millis) (uses : List CacheUse) :
    Slab.keeping.departures slab now uses = Recency.keeping.departures cache now uses := by
  induction uses generalizing slab cache order now with
  | nil => rfl
  | cons use rest ih =>
      obtain ⟨-, hdepartures, -, after, hafter⟩ := h.use now use
      simp only [Keeping.departures]
      rw [hdepartures, ih hafter]

theorem inserts (h : slab.Holds cache order) (budget : Nat) (use : CacheUse) :
    Slab.keeping.inserts budget slab use = Recency.keeping.inserts budget cache use := by
  have hkeys : Slab.keeping.keys slab = Recency.keeping.keys cache := h.slab_keys
  cases use <;> simp only [Keeping.inserts, hkeys]

theorem insertions (h : slab.Holds cache order) (budget : Nat) (now : Millis)
    (uses : List CacheUse) :
    Slab.keeping.insertions budget slab now uses =
      Recency.keeping.insertions budget cache now uses := by
  induction uses generalizing slab cache order now with
  | nil => rfl
  | cons use rest ih =>
      obtain ⟨-, -, -, after, hafter⟩ := h.use now use
      simp only [Keeping.insertions]
      rw [h.inserts, ih hafter]

end Holds

/-- Departures are told of once each. For every budget, number of listeners and sequence of uses of
linked slots that hold nothing at first: where the slots are never cleared, the keys that were
inserted are those that are held and those that departed, as often as they did. For each departure
in turn, every listener is told of it once, in the order of the listeners, and nothing else is told.
Every departure of a use is of an entry that was held before it, with the value that was stored for
the key last, for the reason that goes with the use; and the evictions are counted. -/
theorem departures_told (budget listeners : Nat) (now : Millis) (uses : List CacheUse) :
    let slab := Slab.keeping.run (.empty budget) now uses
    let departures := Slab.keeping.departures (.empty budget) now uses
    ((∀ use ∈ uses, use ≠ .clear) →
      (Slab.keeping.insertions budget (.empty budget) now uses).Perm
        (slab.keys ++ departures.map Departure.key)) ∧
    (Slab.keeping.views listeners (.empty budget) now uses).flatMap CacheView.notices =
      (departures.flatMap fun departure ↦
        (List.range listeners).map fun listener ↦ ⟨listener, departure⟩) ∧
    (∀ front use rest, uses = front ++ use :: rest →
      let before := Slab.keeping.run (.empty budget) now front
      let instant := front.foldl CacheUse.clock now
      ∀ departure ∈ (Slab.keeping.use before instant use).2.2,
        Dismissed budget before.entries instant use departure ∧
        CacheUse.latest departure.key front = some departure.value) ∧
    slab.evictions = departed .evicted departures := by
  intro slab departures
  have hempty := holds_empty budget
  have hexact := Recency.exact_empty budget
  have hfits : (Recency.empty budget).bytes ≤ budget := Nat.zero_le _
  obtain ⟨-, _, hholds⟩ := hempty.run now uses
  have hdepartures : departures = _ := hempty.departures now uses
  refine ⟨fun hkept ↦ ?_, Slab.keeping.notices_views listeners _ now uses, ?_, ?_⟩
  · have hkeys := Recency.keys_run hexact hfits now uses hkept
    rw [hempty.insertions, hholds.slab_keys, hdepartures]
    exact (List.Perm.of_eq (List.append_nil _).symm).trans hkeys
  · rintro front use rest - before instant departure hmem
    obtain ⟨-, _, hbefore⟩ := hempty.run now front
    have hsound := (Recency.sound_run hexact hfits now front).1
    have hdismissed : Dismissed budget before.entries instant use departure := by
      rw [(hbefore.use instant use).2.1] at hmem
      have hdismissed := Recency.dismissed_use hsound hmem
      rwa [Recency.run_budget, ← hbefore.slab_entries] at hdismissed
    refine ⟨hdismissed, ?_⟩
    have hheld : ⟨departure.key, departure.value⟩ ∈ before.entries := hdismissed.mem
    rw [hbefore.slab_entries] at hheld
    exact Recency.latest_of_mem budget now front hheld
  · rw [hholds.evictions, hdepartures, Recency.evictions_run hexact hfits]
    exact Nat.zero_add _

/-- The entry of a key that was stored twice leaves once, with its second value. -/
theorem departures_told_replaced :
    let value : Value := .lasting ⟨#[1, 2, 3]⟩
    let uses : List CacheUse :=
      [.add "a" (.lasting ⟨#[1]⟩), .add "a" value, .add "b" value, .add "c" value]
    (∀ use ∈ uses, use ≠ .clear) ∧
      Slab.keeping.departures (.empty 100) 0 uses = [⟨"a", value, .evicted⟩] ∧
      (Slab.keeping.insertions 100 (.empty 100) 0 uses).Perm
        ((Slab.keeping.run (.empty 100) 0 uses).keys ++ ["a"]) := by
  intro value uses
  have hkept : ∀ use ∈ uses, use ≠ .clear := by simp [uses]
  have hgone : Slab.keeping.departures (.empty 100) 0 uses = [⟨"a", value, .evicted⟩] :=
    ((holds_empty 100).departures 0 uses).trans (by decide +kernel)
  have hkeys := (departures_told 100 2 0 uses).1 hkept
  rw [hgone] at hkeys
  exact ⟨hkept, hgone, hkeys⟩

end Slab

end ReadThrough
