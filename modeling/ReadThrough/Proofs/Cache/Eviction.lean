import ReadThrough.Proofs.Cache.Inclusion

/-!
# What a store evicts

A value that fits the budget is written as the most recent entry, and then the oldest entries leave
until the rest fits. Those that leave are the shortest run at the old end without which the rest
does, so the new entry is never among them; a value that does not fit takes the older one of its key
with it and nothing else. `evicts_shortest` says so of linked slots after any uses.
-/

namespace ReadThrough

section Fitting

variable {budget : Nat} {entries front rest evicted : List Entry} {entry : Entry}

/-- What is before the longest recent run that fits is the shortest run without which the rest
fits. -/
theorem prefix_of_fitting (hevicted : entries = evicted ++ fitting budget entries)
    (hsplit : entries = front ++ rest) (hfits : charge rest ≤ budget) : evicted <+: front := by
  have hrest : rest <:+ fitting budget entries :=
    suffix_fitting (hsplit ▸ List.suffix_append front rest) hfits
  obtain ⟨spared, hspared⟩ := hrest
  have hfront : evicted ++ spared ++ rest = front ++ rest := by
    rw [List.append_assoc, hspared, ← hevicted, hsplit]
  exact ⟨spared, List.append_cancel_right hfront⟩

/-- An entry that fits alone is the last one of the longest recent run that does. -/
theorem fitting_concat (entries : List Entry) (hfits : entry.size ≤ budget) :
    ∃ old, fitting budget (entries ++ [entry]) = old ++ [entry] := by
  have hlast : [entry] <:+ fitting budget (entries ++ [entry]) :=
    suffix_fitting (List.suffix_append entries [entry]) (by simpa using hfits)
  rcases List.suffix_concat_iff.1 (fitting_suffix budget (entries ++ [entry])) with
    hnil | ⟨old, heq, -⟩
  · rw [hnil] at hlast
    exact absurd (List.suffix_nil.1 hlast) (List.cons_ne_nil _ _)
  · exact ⟨old, heq⟩

end Fitting

namespace Recency

variable {cache : Recency} {key : String} {value : Value} {departure : Departure}

/-! ## Taking out -/

theorem remove_entries (cache : Recency) (key : String) :
    (cache.remove key).cache.entries = cache.others key := by
  unfold remove
  cases hfind : cache.find? key with
  | none => exact (others_eq_of_find? hfind).symm
  | some entry =>
      obtain ⟨-, rfl⟩ := of_find? hfind
      rfl

theorem remove_departures_of_mem (h : cache.keys.Nodup) (hmem : ⟨key, value⟩ ∈ cache.entries) :
    (cache.remove key).departures = [⟨key, value, .removed⟩] := by
  have hfind : cache.find? key = some ⟨key, value⟩ := find?_of_mem h hmem
  simp [remove, hfind, Entry.departing]

/-- What is taken out was held. -/
theorem mem_remove_departures (h : departure ∈ (cache.remove key).departures) :
    ∃ entry ∈ cache.entries, entry.key = key ∧ departure = entry.departing .removed := by
  unfold remove at h
  split at h
  · cases h
  · next entry hfind =>
    obtain ⟨hmem, hkey⟩ := of_find? hfind
    exact ⟨entry, hmem, hkey, List.mem_singleton.1 h⟩

theorem find?_of_not_mem (h : key ∉ cache.keys) : cache.find? key = none := by
  cases hfind : cache.find? key with
  | none => rfl
  | some entry =>
      obtain ⟨hmem, rfl⟩ := of_find? hfind
      exact absurd (List.mem_map_of_mem hmem) h

theorem remove_departures_of_not_mem (h : key ∉ cache.keys) :
    (cache.remove key).departures = [] := by
  simp [remove, find?_of_not_mem h]

/-! ## Storing -/

/-- Trimming evicts what is before the longest recent run that fits. -/
theorem Exact.trim_evicts (h : cache.Exact) :
    ∃ evicted, cache.entries = evicted ++ fitting cache.budget cache.entries ∧
      cache.trim.cache.entries = fitting cache.budget cache.entries ∧
      cache.trim.departures = evicted.map (Entry.departing · .evicted) := by
  have hcount : overflow cache.budget cache.entries cache.bytes =
      overflow cache.budget cache.entries (charge cache.entries) := by rw [h.counted]
  refine ⟨cache.entries.take (overflow cache.budget cache.entries cache.bytes), ?_, ?_, rfl⟩
  · rw [hcount, fitting, List.take_append_drop]
  · show cache.entries.drop (overflow _ _ cache.bytes) = _
    rw [hcount, fitting]

theorem add_result : (cache.add key value).result = true ↔ entrySize key value ≤ cache.budget := by
  unfold add
  split
  · next hlt => simpa using hlt
  · next hle => simpa using hle

theorem add_of_lt (hlarge : cache.budget < entrySize key value) :
    cache.add key value =
      ⟨false, (cache.remove key).cache, (cache.remove key).departures⟩ := by
  rw [add, if_pos hlarge]

theorem add_of_le (hfits : entrySize key value ≤ cache.budget) :
    cache.add key value =
      ⟨true, (cache.write ⟨key, value⟩).trim.cache,
        (cache.write ⟨key, value⟩).trim.departures⟩ := by
  rw [add, if_neg (Nat.not_lt.2 hfits)]

/-- An entry that does not fit leaves the entries of other keys. -/
theorem add_entries_of_lt (hlarge : cache.budget < entrySize key value) :
    (cache.add key value).cache.entries = cache.others key := by
  rw [add_of_lt hlarge, remove_entries]

/-- Storing an entry that fits evicts, of the entries of other keys followed by the new one, what is
before the longest recent run that fits. -/
theorem Exact.add_evicts (h : cache.Exact) (hfits : entrySize key value ≤ cache.budget) :
    ∃ evicted, cache.others key ++ [⟨key, value⟩] = evicted ++
        fitting cache.budget (cache.others key ++ [⟨key, value⟩]) ∧
      (cache.add key value).cache.entries =
        fitting cache.budget (cache.others key ++ [⟨key, value⟩]) ∧
      (cache.add key value).departures = evicted.map (Entry.departing · .evicted) := by
  rw [add_of_le hfits]
  exact (h.write ⟨key, value⟩).trim_evicts

/-- An entry that fits is the last one, after the most recent ones of other keys; the others of them
are evicted. -/
theorem Exact.add_entries (h : cache.Exact) (hfits : entrySize key value ≤ cache.budget) :
    ∃ evicted old, cache.others key = evicted ++ old ∧
      (cache.add key value).cache.entries = old ++ [⟨key, value⟩] ∧
      (cache.add key value).departures = evicted.map (Entry.departing · .evicted) := by
  obtain ⟨evicted, hsplit, hkept, htold⟩ := h.add_evicts hfits
  have hsize : Entry.size ⟨key, value⟩ ≤ cache.budget := hfits
  obtain ⟨old, hlast⟩ := fitting_concat (cache.others key) hsize
  rw [hlast, ← List.append_assoc] at hsplit
  exact ⟨evicted, old, List.append_cancel_right hsplit, hkept.trans hlast, htold⟩

/-- Nothing is evicted where there is room for the entry beside those of other keys. -/
theorem Exact.add_departures_of_room (h : cache.Exact)
    (hroom : charge (cache.others key) + entrySize key value ≤ cache.budget) :
    (cache.add key value).departures = [] := by
  have hbytes : (cache.write ⟨key, value⟩).bytes =
      charge (cache.others key) + entrySize key value := by
    rw [(h.write ⟨key, value⟩).counted]
    show charge (cache.others key ++ [⟨key, value⟩]) = _
    rw [charge_append, charge_cons, charge_nil, Nat.add_zero, Entry.size]
  rw [add_of_le (Nat.le_trans (Nat.le_add_left _ _) hroom), trim_of_le (hbytes ▸ hroom)]

end Recency

namespace Slab

/-- What a store evicts. On linked slots that any uses left, a value that does not fit the budget is
refused: the older one of its key leaves as removed, and the other entries stay in their order. One
that fits is stored as the most recent entry, after entries of other keys in their order, and those
that are evicted for it are the shortest run at the old end without which the rest is within the
budget, told of in that order. -/
theorem evicts_shortest (budget : Nat) (now : Millis) (uses : List CacheUse) (key : String)
    (value : Value) :
    let slab := Slab.keeping.run (.empty budget) now uses
    let step := slab.add key value
    let others := slab.entries.filter (·.key ≠ key)
    step.slab.bytes = charge step.slab.entries ∧
    (budget < entrySize key value →
      step.result = false ∧ step.slab.entries = others ∧
      (∀ held, ⟨key, held⟩ ∈ slab.entries → step.departures = [⟨key, held, .removed⟩]) ∧
      (key ∉ slab.keys → step.departures = [])) ∧
    (entrySize key value ≤ budget →
      step.result = true ∧ charge step.slab.entries ≤ budget ∧
      (∃ old, step.slab.entries = old ++ [⟨key, value⟩]) ∧
      ∃ evicted, others ++ [⟨key, value⟩] = evicted ++ step.slab.entries ∧
        step.departures = evicted.map (Entry.departing · .evicted) ∧
        ∀ front rest, others ++ [⟨key, value⟩] = front ++ rest → charge rest ≤ budget →
          evicted <+: front) := by
  intro slab step others
  obtain ⟨-, order, hholds⟩ := (holds_empty budget).run now uses
  obtain ⟨hresult, hdepartures, -, _, hafter⟩ := hholds.add key value
  obtain ⟨hexact, hwithin⟩ :=
    Recency.sound_run (Recency.exact_empty budget) (Nat.zero_le _) now uses
  have hbudget := Recency.run_budget (.empty budget) now uses
  have hothers : others = (Recency.keeping.run (.empty budget) now uses).others key :=
    congrArg (List.filter _) hholds.slab_entries
  rw [hothers, hholds.slab_entries, hafter.slab_entries, hafter.bytes, hholds.slab_keys, hresult,
    hdepartures]
  generalize Recency.keeping.run (.empty budget) now uses = cache at hexact hwithin hbudget ⊢
  subst hbudget
  refine ⟨(hexact.add hwithin key value).1.counted, ?_, ?_⟩
  · intro hlarge
    rw [Recency.add_of_lt hlarge]
    exact ⟨rfl, cache.remove_entries key,
      fun held ↦ Recency.remove_departures_of_mem hexact.distinct,
      Recency.remove_departures_of_not_mem⟩
  · intro hfits
    obtain ⟨evicted, hsplit, hkept, htold⟩ := hexact.add_evicts hfits
    obtain ⟨-, old, -, hlast, -⟩ := hexact.add_entries hfits
    refine ⟨Recency.add_result.2 hfits, ?_, ⟨old, hlast⟩, evicted, ?_, htold, ?_⟩
    · rw [hkept]
      exact charge_fitting_le _ _
    · rw [hkept]
      exact hsplit
    · exact fun front rest ↦ prefix_of_fitting hsplit

/-- Of two entries that fill the budget the older one was read again: the other leaves for a
third. -/
theorem evicts_shortest_touched :
    let value : Value := .lasting ⟨#[1, 2, 3]⟩
    let uses : List CacheUse := [.add "a" value, .add "b" value, .get "a"]
    ((Slab.keeping.run (.empty 100) 0 uses).add "c" value).result = true ∧
      ((Slab.keeping.run (.empty 100) 0 uses).add "c" value).departures =
        [⟨"b", value, .evicted⟩] := by
  intro value uses
  have hentries : (Slab.keeping.run (.empty 100) 0 uses).entries =
      [⟨"b", value⟩, ⟨"a", value⟩] := by
    obtain ⟨-, _, hholds⟩ := (holds_empty 100).run 0 uses
    exact hholds.slab_entries.trans (by decide +kernel)
  have hstored := (evicts_shortest 100 0 uses "c" value).2.2 (by decide +kernel)
  generalize Slab.keeping.run (.empty 100) 0 uses = slab at hentries hstored ⊢
  obtain ⟨hresult, hfits, -, evicted, hsplit, htold, hshortest⟩ := hstored
  have hmoved : slab.entries.filter (·.key ≠ "c") ++ [⟨"c", value⟩] =
      [⟨"b", value⟩, ⟨"a", value⟩, ⟨"c", value⟩] := by
    rw [hentries]
    decide +kernel
  obtain ⟨spared, hspared⟩ :=
    hshortest [⟨"b", value⟩] [⟨"a", value⟩, ⟨"c", value⟩] hmoved (by decide +kernel)
  refine ⟨hresult, htold.trans ?_⟩
  rcases List.append_eq_singleton_iff.1 hspared with ⟨rfl, -⟩ | ⟨rfl, -⟩
  · -- all three together are over the budget
    rw [← List.nil_append (slab.add "c" value).slab.entries, ← hsplit, hmoved] at hfits
    exact absurd hfits (by decide +kernel)
  · rfl

end Slab

end ReadThrough
