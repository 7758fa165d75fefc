import Mathlib.Data.List.Infix
import ReadThrough.Proofs.Cache.Slab

/-!
# A larger budget never loses a hit

Where every key has one value that never expires and every entry fits the budget on its own, a
cache holds a part of the access history that depends on nothing but the budget: of the entries by
their last access, the longest recent run that fits (`Tracks`). What fits a small budget fits a
large one, so the contents of a cache are the recent end of those of a larger cache (`inclusion`).
-/

namespace ReadThrough

/-- The longest run of entries at the recent end that fits a budget. -/
def fitting (budget : Nat) (entries : List Entry) : List Entry :=
  entries.drop (Recency.overflow budget entries (charge entries))

/-- The entries of keys that were accessed, each key once, by its last access. -/
def recent (values : String → Value) (keys : List String) : List Entry :=
  keys.foldl (fun history key ↦ history.filter (·.key ≠ key) ++ [⟨key, values key⟩]) []

section Fitting

variable {budget small large : Nat} {entries run : List Entry} {entry : Entry}

theorem fitting_suffix (budget : Nat) (entries : List Entry) : fitting budget entries <:+ entries :=
  List.drop_suffix _ _

theorem charge_fitting_le (budget : Nat) (entries : List Entry) :
    charge (fitting budget entries) ≤ budget :=
  Recency.charge_drop_overflow budget entries

theorem fitting_of_le (h : charge entries ≤ budget) : fitting budget entries = entries := by
  have hoverflow : Recency.overflow budget entries (charge entries) = 0 := by
    cases entries with
    | nil => rfl
    | cons entry rest => rw [Recency.overflow, if_pos h]
  rw [fitting, hoverflow, List.drop_zero]

theorem fitting_cons_of_lt (h : budget < charge (entry :: run)) :
    fitting budget (entry :: run) = fitting budget run := by
  rw [fitting, Recency.overflow, if_neg (Nat.not_le.2 h), List.drop_succ_cons, charge_cons,
    Nat.add_sub_cancel_left]
  rfl

/-- Every run at the recent end that fits is within the longest one. -/
theorem suffix_fitting (hrun : run <:+ entries) (h : charge run ≤ budget) :
    run <:+ fitting budget entries := by
  induction entries with
  | nil => exact hrun
  | cons entry rest ih =>
      by_cases hfits : charge (entry :: rest) ≤ budget
      · rwa [fitting_of_le hfits]
      · rw [fitting_cons_of_lt (Nat.not_le.1 hfits)]
        rcases List.suffix_cons_iff.1 hrun with rfl | hrest
        · exact absurd h hfits
        · exact ih hrest

theorem fitting_mono (h : small ≤ large) (entries : List Entry) :
    fitting small entries <:+ fitting large entries :=
  suffix_fitting (fitting_suffix small entries)
    (Nat.le_trans (charge_fitting_le small entries) h)

/-- Leaving out the entry of a key saves no more than its size. -/
theorem charge_le_filter (hnodup : (entries.map Entry.key).Nodup)
    (hvalue : ∀ other ∈ entries, other.key = entry.key → other = entry) :
    charge entries ≤ charge (entries.filter (·.key ≠ entry.key)) + entry.size := by
  by_cases hmem : entry ∈ entries
  · exact Nat.le_of_eq (Recency.charge_others hnodup hmem).symm
  · have hself : entries.filter (·.key ≠ entry.key) = entries := by
      rw [List.filter_eq_self]
      intro other hother
      simpa using fun hkey ↦ hmem (hvalue other hother hkey ▸ hother)
    rw [hself]
    exact Nat.le_add_right _ _

/-- Moving an entry to the recent end of the longest run that fits, and making room for it where it
is new, leaves the longest run that fits of what moving it among all entries leaves. -/
theorem fitting_touch (entry : Entry) (hnodup : (entries.map Entry.key).Nodup)
    (hvalue : ∀ other ∈ entries, other.key = entry.key → other = entry) :
    fitting budget ((fitting budget entries).filter (·.key ≠ entry.key) ++ [entry]) =
      fitting budget (entries.filter (·.key ≠ entry.key) ++ [entry]) := by
  have hshorter : (fitting budget entries).filter (·.key ≠ entry.key) ++ [entry] <:+
      entries.filter (·.key ≠ entry.key) ++ [entry] :=
    (List.suffix_append_inj_of_length_eq rfl).2 ⟨(fitting_suffix budget entries).filter _, rfl⟩
  have hfits := charge_fitting_le budget (entries.filter (·.key ≠ entry.key) ++ [entry])
  have hforward := suffix_fitting ((fitting_suffix budget _).trans hshorter)
    (charge_fitting_le budget _)
  -- a run that fits after the move comes from one that fitted before it
  have hrun : fitting budget (entries.filter (·.key ≠ entry.key) ++ [entry]) <:+
      (fitting budget entries).filter (·.key ≠ entry.key) ++ [entry] := by
    rcases List.suffix_concat_iff.1 (fitting_suffix budget
      (entries.filter (·.key ≠ entry.key) ++ [entry])) with hnil | ⟨kept, hkept, hsuffix⟩
    · rw [hnil]
      exact List.nil_suffix
    · obtain ⟨dropped, hsplit⟩ := hsuffix
      obtain ⟨front, run, rfl, -, rfl⟩ := List.filter_eq_append_iff.1 hsplit.symm
      rw [hkept, charge_append, charge_cons, charge_nil, Nat.add_zero] at hfits
      have hcharge : charge run ≤ charge (run.filter (·.key ≠ entry.key)) + entry.size :=
        charge_le_filter (hnodup.sublist ((List.sublist_append_right front run).map Entry.key))
        fun other hother ↦ hvalue other (List.mem_append_right front hother)
      have hbefore : run <:+ fitting budget (front ++ run) :=
        suffix_fitting (List.suffix_append front run) (Nat.le_trans hcharge hfits)
      rw [hkept]
      exact (List.suffix_append_inj_of_length_eq rfl).2 ⟨hbefore.filter _, rfl⟩
  exact hforward.eq_of_length_le (suffix_fitting hrun (charge_fitting_le _ _)).length_le

end Fitting

/-! ## One cache -/

section Accesses

variable {values : String → Value} {keys : List String}

theorem recent_concat (values : String → Value) (keys : List String) (key : String) :
    recent values (keys ++ [key]) =
      (recent values keys).filter (·.key ≠ key) ++ [⟨key, values key⟩] := by
  simp [recent]

/-- An entry that was accessed has an accessed key and the value of that key. -/
theorem mem_recent {entry : Entry} (h : entry ∈ recent values keys) :
    entry.key ∈ keys ∧ entry.value = values entry.key := by
  induction keys using List.reverseRecOn with
  | nil => cases h
  | append_singleton keys key ih =>
      rw [recent_concat] at h
      rcases List.mem_append.1 h with hold | hlast
      · obtain ⟨hkey, hvalue⟩ := ih (List.mem_filter.1 hold).1
        exact ⟨List.mem_append_left _ hkey, hvalue⟩
      · obtain rfl := List.mem_singleton.1 hlast
        exact ⟨List.mem_append_right _ (List.mem_singleton_self _), rfl⟩

theorem nodup_recent (values : String → Value) (keys : List String) :
    ((recent values keys).map Entry.key).Nodup := by
  induction keys using List.reverseRecOn with
  | nil => exact List.nodup_nil
  | append_singleton keys key ih =>
      rw [recent_concat]
      exact @Recency.nodup_append { Recency.empty 0 with entries := recent values keys } ih
        ⟨key, values key⟩

theorem get_lasting {cache : Recency} {key : String} (hdistinct : cache.keys.Nodup)
    (hmem : ⟨key, values key⟩ ∈ cache.entries) (hlasting : (values key).expiresAt = none)
    (now : Millis) :
    cache.get key now =
      ⟨some (values key), { cache with entries := cache.others key ++ [⟨key, values key⟩] },
        []⟩ := by
  have hfind : cache.find? key = some ⟨key, values key⟩ := Recency.find?_of_mem hdistinct hmem
  simp [Recency.get, hfind, Value.expired, hlasting]

/-- The key of a lasting entry that is held is a hit. -/
theorem hits_of_mem {cache : Recency} {key : String} (hdistinct : cache.keys.Nodup)
    (hmem : ⟨key, values key⟩ ∈ cache.entries) (hlasting : (values key).expiresAt = none)
    (now : Millis) : Recency.keeping.hits cache now key = true := by
  simp [Keeping.hits, Recency.keeping, get_lasting hdistinct hmem hlasting now]

/-- The entry of a hit becomes the most recent one. -/
theorem access_hit {cache : Recency} {key : String} (hdistinct : cache.keys.Nodup)
    (hmem : ⟨key, values key⟩ ∈ cache.entries) (hlasting : (values key).expiresAt = none)
    (now : Millis) :
    Recency.keeping.access values cache now key =
      { cache with entries := cache.others key ++ [⟨key, values key⟩] } := by
  rw [Keeping.access, if_pos (hits_of_mem hdistinct hmem hlasting now)]
  exact congrArg Recency.Step.cache (get_lasting hdistinct hmem hlasting now)

/-- The entry of a key that is not held is written, and room is made for it. -/
theorem access_miss {cache : Recency} {key : String} (hfind : cache.find? key = none)
    (hsize : entrySize key (values key) ≤ cache.budget) (now : Millis) :
    Recency.keeping.access values cache now key =
      (cache.write ⟨key, values key⟩).trim.cache := by
  have hget : cache.get key now = ⟨none, cache, []⟩ := by simp [Recency.get, hfind]
  simp [Keeping.access, Keeping.hits, Recency.keeping, hget, Recency.add, Nat.not_lt.2 hsize]

/-- A cache holds, of the entries by their last access, the longest recent run that fits. -/
structure Tracks (values : String → Value) (keys : List String) (cache : Recency) : Prop where
  exact : cache.Exact
  entries : cache.entries = fitting cache.budget (recent values keys)

namespace Tracks

variable {cache : Recency} {key : String}

/-- An entry that is held has an accessed key and the value of that key. -/
theorem mem (h : Tracks values keys cache) {entry : Entry} (hmem : entry ∈ cache.entries) :
    entry.key ∈ keys ∧ entry = ⟨entry.key, values entry.key⟩ := by
  obtain ⟨hkey, hvalue⟩ := mem_recent ((fitting_suffix _ _).subset (h.entries ▸ hmem))
  exact ⟨hkey, by rw [← hvalue]⟩

/-- A hit is of an accessed key whose entry is held. -/
theorem mem_of_hits (h : Tracks values keys cache) {now : Millis}
    (hhit : Recency.keeping.hits cache now key = true) :
    ⟨key, values key⟩ ∈ cache.entries ∧ key ∈ keys := by
  obtain ⟨value, hvalue⟩ : ∃ value, (cache.get key now).result = some value :=
    Option.isSome_iff_exists.1 hhit
  have hmem := Recency.mem_of_get hvalue
  obtain ⟨hkey, hentry⟩ := h.mem hmem
  rw [hentry] at hmem
  exact ⟨hmem, hkey⟩

theorem fits (h : Tracks values keys cache) : cache.bytes ≤ cache.budget := by
  rw [h.exact.counted, h.entries]
  exact charge_fitting_le _ _

/-- An access leaves the longest run that fits, whether it is a hit or not. -/
theorem access (h : Tracks values keys cache) (now : Millis) (key : String)
    (hsize : entrySize key (values key) ≤ cache.budget) (hlasting : (values key).expiresAt = none) :
    Tracks values (keys ++ [key]) (Recency.keeping.access values cache now key) ∧
      (Recency.keeping.access values cache now key).budget = cache.budget := by
  have htouch : fitting cache.budget (cache.others key ++ [⟨key, values key⟩]) =
      fitting cache.budget (recent values (keys ++ [key])) := by
    rw [Recency.others, h.entries, recent_concat]
    refine fitting_touch ⟨key, values key⟩ (nodup_recent values keys) ?_
    rintro ⟨_, _⟩ hother rfl
    rw [← (mem_recent hother).2]
  cases hfind : cache.find? key with
  | none =>
      -- the write is the touch, and trimming drops what does not fit
      have hwritten := h.exact.write ⟨key, values key⟩
      rw [access_miss hfind hsize now]
      refine ⟨⟨hwritten.trim.1, ?_⟩, rfl⟩
      refine Eq.trans ?_ htouch
      show List.drop (Recency.overflow _ _ (cache.write ⟨key, values key⟩).bytes) _ = _
      rw [hwritten.counted]
      rfl
  | some entry =>
      -- a hit changes the order and not the bytes, so that everything still fits
      obtain ⟨hmem, rfl⟩ := Recency.of_find? hfind
      have hentry := (h.mem hmem).2
      have haccess := access_hit h.exact.distinct (hentry ▸ hmem) hlasting now
      have hexact := (cache.get_below entry.key now).exact h.exact
      rw [get_lasting h.exact.distinct (hentry ▸ hmem) hlasting now] at hexact
      rw [haccess]
      refine ⟨⟨hexact, ?_⟩, rfl⟩
      refine (fitting_of_le ?_).symm.trans htouch
      exact hexact.counted.symm.trans_le h.fits

theorem accesses (h : Tracks values keys cache) (accesses : List (Millis × String))
    (hsize : ∀ access ∈ accesses, entrySize access.2 (values access.2) ≤ cache.budget)
    (hlasting : ∀ access ∈ accesses, (values access.2).expiresAt = none) :
    Tracks values (keys ++ accesses.map Prod.snd)
        (Recency.keeping.accesses values cache accesses) ∧
      (Recency.keeping.accesses values cache accesses).budget = cache.budget := by
  induction accesses generalizing keys cache with
  | nil => simpa [Keeping.accesses] using h
  | cons access rest ih =>
      obtain ⟨hstep, hbudget⟩ := h.access access.1 access.2 (hsize access List.mem_cons_self)
        (hlasting access List.mem_cons_self)
      rw [← hbudget] at hsize
      have hrest := ih hstep (fun other hother ↦ hsize other (List.mem_cons_of_mem _ hother))
        fun other hother ↦ hlasting other (List.mem_cons_of_mem _ hother)
      rw [List.append_assoc, hbudget] at hrest
      exact hrest

end Tracks

end Accesses

/-! ## Two caches -/

namespace Slab

variable {values : String → Value} {slab : Slab} {cache : Recency} {order : List Nat}

namespace Holds

theorem hits (h : slab.Holds cache order) (now : Millis) (key : String) :
    Slab.keeping.hits slab now key = Recency.keeping.hits cache now key := by
  rw [Keeping.hits, (h.use now (.get key)).1]
  rfl

/-- An access of linked slots leaves what the list by recency holds. -/
theorem access (h : slab.Holds cache order) (values : String → Value) (now : Millis)
    (key : String) :
    ∃ order, (Slab.keeping.access values slab now key).Holds
      (Recency.keeping.access values cache now key) order := by
  obtain ⟨-, -, -, read, hread⟩ := h.use now (.get key)
  unfold Keeping.access
  rw [h.hits now key]
  split
  · exact ⟨read, hread⟩
  · exact (hread.use now (.add key (values key))).2.2.2

theorem accesses (h : slab.Holds cache order) (values : String → Value)
    (accesses : List (Millis × String)) :
    ∃ order, (Slab.keeping.accesses values slab accesses).Holds
      (Recency.keeping.accesses values cache accesses) order := by
  induction accesses generalizing slab cache order with
  | nil => exact ⟨order, h⟩
  | cons access rest ih =>
      obtain ⟨after, hafter⟩ := h.access values access.1 access.2
      exact ih hafter

end Holds

/-- Two caches of linked slots that hold nothing at first take the same accesses, each of which
reads a key and stores its value if the read is not answered. Where the values that are accessed
never expire and each of their entries fits the smaller budget, the keys of the smaller cache are
the recent end of those of the larger one, and whatever the smaller one answers the larger one
answers too. -/
theorem inclusion (values : String → Value) (accesses : List (Millis × String)) {small large : Nat}
    (hle : small ≤ large)
    (hsize : ∀ access ∈ accesses, entrySize access.2 (values access.2) ≤ small)
    (hlasting : ∀ access ∈ accesses, (values access.2).expiresAt = none) :
    (Slab.keeping.accesses values (.empty small) accesses).keys <:+
        (Slab.keeping.accesses values (.empty large) accesses).keys ∧
      ∀ (now : Millis) (key : String),
        Slab.keeping.hits (Slab.keeping.accesses values (.empty small) accesses) now key = true →
        Slab.keeping.hits (Slab.keeping.accesses values (.empty large) accesses) now key = true := by
  have hempty : ∀ budget, Tracks values [] (.empty budget) := fun budget ↦
    ⟨Recency.exact_empty budget, rfl⟩
  obtain ⟨_, hsmall⟩ := (holds_empty small).accesses values accesses
  obtain ⟨_, hlarge⟩ := (holds_empty large).accesses values accesses
  obtain ⟨hsmaller, hsmallBudget⟩ := (hempty small).accesses accesses hsize hlasting
  obtain ⟨hlarger, hlargeBudget⟩ := (hempty large).accesses accesses
    (fun access hmem ↦ Nat.le_trans (hsize access hmem) hle) hlasting
  have hentries : (Recency.keeping.accesses values (.empty small) accesses).entries <:+
      (Recency.keeping.accesses values (.empty large) accesses).entries := by
    rw [hsmaller.entries, hlarger.entries, hsmallBudget, hlargeBudget]
    exact fitting_mono hle _
  refine ⟨?_, fun now key hhit ↦ ?_⟩
  · rw [hsmall.slab_keys, hlarge.slab_keys]
    exact hentries.map Entry.key
  · rw [hsmall.hits] at hhit
    rw [hlarge.hits]
    obtain ⟨hmem, hkey⟩ := hsmaller.mem_of_hits hhit
    obtain ⟨access, haccess, rfl⟩ := List.mem_map.1 hkey
    exact hits_of_mem hlarger.exact.distinct (hentries.subset hmem) (hlasting access haccess) now

/-- Room for two entries against room for three, with a key that only the larger cache still has
when it is read again. -/
theorem inclusion_two_of_three :
    let values : String → Value := fun _ ↦ .lasting ⟨#[1, 2, 3]⟩
    let accesses := [(0, "a"), (1, "b"), (1, "c"), (2, "a"), (5, "c")]
    (Slab.keeping.accesses values (.empty 72) accesses).keys <:+
        (Slab.keeping.accesses values (.empty 108) accesses).keys ∧
      ∀ (now : Millis) (key : String),
        Slab.keeping.hits (Slab.keeping.accesses values (.empty 72) accesses) now key = true →
        Slab.keeping.hits (Slab.keeping.accesses values (.empty 108) accesses) now key = true :=
  inclusion _ _ (by decide) (by decide) (by decide)

end Slab

end ReadThrough
