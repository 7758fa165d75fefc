import Mathlib.Algebra.Ring.Nat
import Mathlib.Data.List.Basic
import ReadThrough.Shares

/-!
# Lemmas on shares

What happens to one entry happens to it in the share of its owner, at its rank, and leaves the other
shares as they are.
-/

namespace ReadThrough

variable {O A B : Type} [BEq O] {owner : O} {owners : List O} {entries : List A} {number : Nat}

@[simp] theorem share_nil_right (owner : O) (owners : List O) :
    share owner owners ([] : List A) = [] := by
  cases owners <;> rfl

@[simp] theorem rank_zero (owner : O) (owners : List O) : rank owner owners 0 = 0 := rfl

theorem rank_cons_succ (owner other : O) (owners : List O) (number : Nat) :
    rank owner (other :: owners) (number + 1) =
      rank owner owners number + if other == owner then 1 else 0 := by
  rw [rank, List.take_succ_cons, List.count_cons, rank]

/-- One entry further there is one entry more of its owner. -/
theorem rank_succ {other : O} (h : owners[number]? = some other) :
    rank owner owners (number + 1) =
      rank owner owners number + if other == owner then 1 else 0 := by
  obtain ⟨hlt, rfl⟩ := List.getElem?_eq_some_iff.1 h
  rw [rank, List.take_succ_eq_append_getElem hlt, List.count_append, List.count_singleton, rank]

/-- Behind the last entry are all entries of an owner. -/
theorem rank_of_le (h : owners.length ≤ number) :
    rank owner owners number = owners.count owner := by
  rw [rank, List.take_of_length_le h]

/-- New entries do not change the rank of old ones. -/
theorem rank_append (h : number ≤ owners.length) (new : List O) :
    rank owner (owners ++ new) number = rank owner owners number := by
  rw [rank, List.take_append_of_le_length h, rank]

theorem length_share (h : owners.length = entries.length) :
    (share owner owners entries).length = owners.count owner := by
  induction owners generalizing entries with
  | nil => rfl
  | cons other owners ih =>
      cases entries with
      | nil => cases h
      | cons entry entries =>
          rw [share, List.count_cons, ← ih (Nat.succ.inj h)]
          split <;> rfl

theorem share_map (f : A → B) (owner : O) (owners : List O) (entries : List A) :
    share owner owners (entries.map f) = (share owner owners entries).map f := by
  induction owners generalizing entries with
  | nil => rfl
  | cons other owners ih =>
      cases entries with
      | nil => rfl
      | cons entry entries =>
          simp only [List.map_cons, share]
          split
          · rw [ih, List.map_cons]
          · exact ih entries

/-- What comes last comes last in the share of its owner. -/
theorem share_append (h : owners.length = entries.length) (owner other : O) (entry : A) :
    share owner (owners ++ [other]) (entries ++ [entry]) =
      share owner owners entries ++ if other == owner then [entry] else [] := by
  induction owners generalizing entries with
  | nil =>
      cases entries with
      | nil =>
          simp only [List.nil_append, share]
      | cons entry entries => cases h
  | cons first owners ih =>
      cases entries with
      | nil => cases h
      | cons entry entries =>
          simp only [List.cons_append, share, ih (Nat.succ.inj h)]
          split <;> rfl

theorem mem_of_mem_share {entry : A} (h : entry ∈ share owner owners entries) :
    entry ∈ entries := by
  induction owners generalizing entries with
  | nil => cases h
  | cons other owners ih =>
      cases entries with
      | nil => simp at h
      | cons first entries =>
          rw [share] at h
          split at h
          · rcases List.mem_cons.1 h with rfl | hmem
            · exact List.mem_cons_self
            · exact List.mem_cons_of_mem _ (ih hmem)
          · exact List.mem_cons_of_mem _ (ih h)

section

variable [LawfulBEq O]

/-- An entry stands in the share of its owner at its rank. -/
theorem getElem?_share (h : owners[number]? = some owner) :
    (share owner owners entries)[rank owner owners number]? = entries[number]? := by
  induction owners generalizing entries number with
  | nil => simp at h
  | cons other owners ih =>
      cases entries with
      | nil => simp
      | cons entry entries =>
          cases number with
          | zero =>
              obtain rfl : other = owner := by simpa using h
              simp [share]
          | succ number =>
              rw [List.getElem?_cons_succ] at h
              rw [List.getElem?_cons_succ, ← ih h, rank_cons_succ, share]
              split <;> rfl

/-- What is done to an entry is done to it in the share of its owner. -/
theorem share_modify (h : owners[number]? = some owner) (f : A → A) :
    share owner owners (entries.modify number f) =
      (share owner owners entries).modify (rank owner owners number) f := by
  induction owners generalizing entries number with
  | nil => simp at h
  | cons other owners ih =>
      cases entries with
      | nil => simp
      | cons entry entries =>
          cases number with
          | zero =>
              obtain rfl : other = owner := by simpa using h
              simp [share]
          | succ number =>
              rw [List.getElem?_cons_succ] at h
              rw [List.modify_succ_cons, share, share, ih h, rank_cons_succ]
              split
              · rw [List.modify_succ_cons]
              · rfl

/-- What is done to an entry leaves the shares of others as they are. -/
theorem share_modify_of_ne {other : O} (h : owners[number]? = some other) (hne : other ≠ owner)
    (f : A → A) : share owner owners (entries.modify number f) = share owner owners entries := by
  induction owners generalizing entries number with
  | nil => simp at h
  | cons first owners ih =>
      cases entries with
      | nil => simp
      | cons entry entries =>
          cases number with
          | zero =>
              obtain rfl : first = other := by simpa using h
              simp [share, hne]
          | succ number =>
              rw [List.getElem?_cons_succ] at h
              rw [List.modify_succ_cons, share, share, ih h]

/-- What takes the place of an entry takes it in the share of its owner. -/
theorem share_set (h : owners[number]? = some owner) (entry : A) :
    share owner owners (entries.set number entry) =
      (share owner owners entries).set (rank owner owners number) entry := by
  rw [List.set_eq_modify, share_modify h, List.set_eq_modify]

theorem share_set_of_ne {other : O} (h : owners[number]? = some other) (hne : other ≠ owner)
    (entry : A) : share owner owners (entries.set number entry) = share owner owners entries := by
  rw [List.set_eq_modify, share_modify_of_ne h hne]

/-- Different entries of an owner have different ranks. -/
theorem rank_inj {other : Nat} (h : owners[number]? = some owner)
    (hother : owners[other]? = some owner) :
    rank owner owners number = rank owner owners other ↔ number = other := by
  induction owners generalizing number other with
  | nil => simp at h
  | cons first owners ih =>
      cases number with
      | zero =>
          obtain rfl : first = owner := by simpa using h
          cases other with
          | zero => simp
          | succ other => simp [rank_cons_succ]
      | succ number =>
          rw [List.getElem?_cons_succ] at h
          cases other with
          | zero =>
              obtain rfl : first = owner := by simpa using hother
              simp [rank_cons_succ]
          | succ other =>
              rw [List.getElem?_cons_succ] at hother
              rw [rank_cons_succ, rank_cons_succ, Nat.add_right_cancel_iff, ih h hother,
                Nat.add_right_cancel_iff]

end

/-! ## Numbers in shares -/

theorem ranks_append (owner : O) (owners : List O) (numbers more : List Nat) :
    ranks owner owners (numbers ++ more) =
      ranks owner owners numbers ++ ranks owner owners more := by
  simp [ranks]

/-- New entries do not change the numbers of old ones. -/
theorem ranks_extend (owner : O) {numbers : List Nat}
    (h : ∀ number ∈ numbers, number < owners.length) (new : List O) :
    ranks owner (owners ++ new) numbers = ranks owner owners numbers := by
  have hfilter : numbers.filter (fun number ↦ (owners ++ new)[number]? == some owner) =
      numbers.filter fun number ↦ owners[number]? == some owner :=
    List.filter_congr fun number hmem ↦ by rw [List.getElem?_append_left (h number hmem)]
  rw [ranks, hfilter]
  exact List.map_congr_left fun number hmem ↦
    rank_append (Nat.le_of_lt (h number (List.mem_filter.1 hmem).1)) new

section

variable [LawfulBEq O]

theorem ranks_self (h : owners[number]? = some owner) :
    ranks owner owners [number] = [rank owner owners number] := by
  simp [ranks, h]

theorem ranks_of_ne {other : O} (h : owners[number]? = some other) (hne : other ≠ owner) :
    ranks owner owners [number] = [] := by
  simp [ranks, h, hne]

end

/-! ## Shares together -/

omit [BEq O] in
/-- A sum over different owners grows by what one of them gains. -/
theorem sum_map_gain {names : List O} (hnames : names.Nodup) (howner : owner ∈ names)
    {before after : O → Nat} {gain : Nat} (hgain : after owner = before owner + gain)
    (hothers : ∀ other, other ≠ owner → after other = before other) :
    (names.map after).sum = (names.map before).sum + gain := by
  obtain ⟨front, back, rfl⟩ := List.append_of_mem howner
  obtain ⟨-, hrest, hfront⟩ := List.nodup_append.1 hnames
  obtain ⟨hback, -⟩ := List.nodup_cons.1 hrest
  have hsame : ∀ part : List O, owner ∉ part → part.map after = part.map before := fun part hnot ↦
    List.map_congr_left fun other hmem ↦ hothers other fun heq ↦ hnot (heq ▸ hmem)
  rw [List.map_append, List.map_append, List.map_cons, List.map_cons, List.sum_append,
    List.sum_append, List.sum_cons, List.sum_cons, hgain, hsame back hback,
    hsame front fun hmem ↦ hfront owner hmem owner List.mem_cons_self rfl]
  omega

/-- The shares of all owners have as many entries together as there are. -/
theorem sum_map_count [LawfulBEq O] {names : List O} (hnames : names.Nodup)
    (h : ∀ owner ∈ owners, owner ∈ names) :
    (names.map fun name ↦ owners.count name).sum = owners.length := by
  induction owners with
  | nil => simp
  | cons owner owners ih =>
      have hmem := h owner List.mem_cons_self
      rw [List.length_cons, ← ih fun other hother ↦ h other (List.mem_cons_of_mem _ hother)]
      refine sum_map_gain hnames hmem (List.count_cons_self ..) fun other hne ↦ ?_
      exact List.count_cons_of_ne hne.symm

end ReadThrough
