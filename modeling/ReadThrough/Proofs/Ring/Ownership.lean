import Mathlib.Data.Finset.Sort
import ReadThrough.Membership
import ReadThrough.Proofs.Ring.Contents

/-!
# Ownership after changes of the peers

What a node knows about its peers after replacements, additions and removals is determined by the
peers that are left, as long as no two of the peers that were ever placed share a position. Read
`covers_foldl_change` first: it gives the contents of the ring after any changes.
-/

namespace ReadThrough.Membership

/-- The peers that are left after a change. -/
def Change.left (peers : Finset String) : Change → Finset String
  | .set others => others.toFinset
  | .add others => peers ∪ others.toFinset
  | .remove other => peers.erase other

/-- The peers that a change places. -/
def Change.placed : Change → Finset String
  | .set others | .add others => others.toFinset
  | .remove _ => ∅

/-- The peers that are left after some changes, if there were none before. -/
def left (changes : List Change) : Finset String :=
  changes.foldl Change.left ∅

/-- All peers that some changes place, those included that later ones take away. -/
def placed : List Change → Finset String
  | [] => ∅
  | first :: rest => first.placed ∪ placed rest

variable {membership : Membership} {peers : Finset String}

/-! ## One change -/

@[simp] theorem selfId_change (membership : Membership) (change : Change) :
    (membership.change change).selfId = membership.selfId := by
  cases change <;> rfl

@[simp] theorem replicas_change (membership : Membership) (change : Change) :
    (membership.change change).ring.replicas = membership.ring.replicas := by
  cases change <;> simp [Membership.change, setPeers, addPeers, removePeer, Ring.empty, Ring.erase]

@[simp] theorem hash_change (membership : Membership) (change : Change) :
    (membership.change change).ring.hash = membership.ring.hash := by
  cases change <;> simp [Membership.change, setPeers, addPeers, removePeer, Ring.empty, Ring.erase]

theorem left_subset (peers : Finset String) (change : Change) :
    change.left peers ⊆ peers ∪ change.placed := by
  cases change with
  | set others => exact Finset.subset_union_right
  | add others => exact Finset.Subset.rfl
  | remove other => exact (Finset.erase_subset _ _).trans Finset.subset_union_left

/-- A change leaves a ring that covers the peers that are left. -/
theorem covers_change (h : membership.ring.Covers peers) (change : Change)
    (hapart : Ring.Apart membership.ring.replicas membership.ring.hash (peers ∪ change.placed)) :
    (membership.change change).ring.Covers (change.left peers) := by
  cases change with
  | set others =>
      have hothers := (Ring.Covers.empty membership.ring.replicas membership.ring.hash).insertMany
        others (hapart.mono (by simp [Change.placed]))
      rwa [Finset.empty_union] at hothers
  | add others => exact h.insertMany others hapart
  | remove other => exact h.erase other

/-! ## Any number of changes -/

@[simp] theorem selfId_foldl_change (membership : Membership) (changes : List Change) :
    (changes.foldl change membership).selfId = membership.selfId := by
  induction changes generalizing membership with
  | nil => rfl
  | cons first rest ih => exact (ih _).trans (selfId_change membership first)

@[simp] theorem replicas_foldl_change (membership : Membership) (changes : List Change) :
    (changes.foldl change membership).ring.replicas = membership.ring.replicas := by
  induction changes generalizing membership with
  | nil => rfl
  | cons first rest ih => exact (ih _).trans (replicas_change membership first)

@[simp] theorem hash_foldl_change (membership : Membership) (changes : List Change) :
    (changes.foldl change membership).ring.hash = membership.ring.hash := by
  induction changes generalizing membership with
  | nil => rfl
  | cons first rest ih => exact (ih _).trans (hash_change membership first)

/-- Changes leave a ring that covers the peers that are left, if no two of those that were there
or are placed share a position. -/
theorem covers_foldl_change (h : membership.ring.Covers peers) (changes : List Change)
    (hapart : Ring.Apart membership.ring.replicas membership.ring.hash (peers ∪ placed changes)) :
    (changes.foldl change membership).ring.Covers (changes.foldl Change.left peers) := by
  induction changes generalizing membership peers with
  | nil => exact h
  | cons first rest ih =>
      rw [placed, ← Finset.union_assoc] at hapart
      refine ih (covers_change h first (hapart.mono Finset.subset_union_left)) ?_
      rw [replicas_change, hash_change]
      exact hapart.mono (Finset.union_subset_union_left (left_subset peers first))

/-! ## Nodes that agree -/

/-- A node whose peers are the outcome of some changes. -/
def changed (selfId : String) (replicas : Nat) (hash : Ring.Hash) (changes : List Change) :
    Membership :=
  changes.foldl change (alone selfId replicas hash)

/-- Some changes leave these peers, and no two of the peers that they place share a position. -/
structure Leaves (replicas : Nat) (hash : Ring.Hash) (changes : List Change)
    (peers : Finset String) : Prop where
  left : left changes = peers
  apart : Ring.Apart replicas hash (placed changes)

variable {replicas : Nat} {hash : Ring.Hash} {changes others : List Change}

/-- The ring after the changes covers the peers that are left. -/
theorem Leaves.covers (h : Leaves replicas hash changes peers) (selfId : String) :
    (changed selfId replicas hash changes).ring.Covers peers := by
  have hempty : (alone selfId replicas hash).ring.Covers ∅ := Ring.Covers.empty replicas hash
  have hchanges := covers_foldl_change hempty changes (by simpa [alone, Ring.empty] using h.apart)
  exact h.left ▸ hchanges

/-- The ring after the changes does not depend on which changes they were. -/
theorem Leaves.ring_eq (h : Leaves replicas hash changes peers)
    (hothers : Leaves replicas hash others peers) (selfId otherId : String) :
    (changed selfId replicas hash changes).ring = (changed otherId replicas hash others).ring :=
  (hothers.covers otherId).unique (h.covers selfId) (by simp [changed, alone, Ring.empty])
    (by simp [changed, alone, Ring.empty])

theorem Leaves.peers_eq (h : Leaves replicas hash changes peers) (hreplicas : 0 < replicas)
    (selfId : String) : (changed selfId replicas hash changes).peers = peers.sort := by
  refine (Ring.pairwise_members _).eq_of_mem_iff (Finset.sortedLT_sort peers).pairwise fun peer ↦ ?_
  rw [(h.covers selfId).mem_members (by simpa [changed, alone, Ring.empty] using hreplicas),
    Finset.mem_sort]

/-- Ownership follows from the peers that are left. Whatever changes leave the peers, they are
listed in order, and a key has the same owner. If every peer makes changes of its own that leave
these peers, then one of them serves the key itself and all others turn to that one. -/
theorem owner_independent_of_history (hreplicas : 0 < replicas) (hash : Ring.Hash)
    (peers : Finset String) :
    (∀ changes, Leaves replicas hash changes peers → ∀ selfId,
      (changed selfId replicas hash changes).peers = peers.sort) ∧
    (∀ changes others, Leaves replicas hash changes peers → Leaves replicas hash others peers →
      ∀ selfId otherId key, (changed selfId replicas hash changes).ring.owner? (utf8 key) =
        (changed otherId replicas hash others).ring.owner? (utf8 key)) ∧
    (peers.Nonempty → ∀ history : String → List Change,
      (∀ peer ∈ peers, Leaves replicas hash (history peer) peers) → ∀ key, ∃ owner ∈ peers,
        (changed owner replicas hash (history owner)).pick key = .here ∧
        ∀ peer ∈ peers, peer ≠ owner →
          (changed peer replicas hash (history peer)).pick key = .peer owner) := by
  refine ⟨fun changes h selfId ↦ h.peers_eq hreplicas selfId, ?_, ?_⟩
  · intro changes others h hothers selfId otherId key
    rw [h.ring_eq hothers selfId otherId]
  · intro hpeers history hhistory key
    obtain ⟨first, hfirst⟩ := hpeers
    have hcovers := (hhistory first hfirst).covers first
    obtain ⟨owner, howner, hkey⟩ := hcovers.exists_owner
      (by simpa [changed, alone, Ring.empty] using hreplicas) ⟨first, hfirst⟩ (utf8 key)
    -- every peer sees the ring of the first
    have hpick : ∀ peer ∈ peers, (changed peer replicas hash (history peer)).pick key =
        if owner = peer then .here else .peer owner := by
      intro peer hpeer
      rw [pick, (hhistory peer hpeer).ring_eq (hhistory first hfirst) peer first, hkey, changed,
        selfId_foldl_change, alone]
    refine ⟨owner, howner, by rw [hpick owner howner, if_pos rfl], ?_⟩
    intro peer hpeer hne
    rw [hpick peer hpeer, if_neg (Ne.symm hne)]

/-- One node is told of its peers at once, the other one by one and in between of a third. -/
theorem owner_independent_of_history_pair : ∃ owner ∈ ({"a", "b"} : Finset String),
    ∀ peer ∈ ({"a", "b"} : Finset String), peer ≠ owner →
      (changed peer 2 Ring.defaultHash (if peer = "a" then [.set ["b", "a"]] else
        [.add ["a", "c"], .remove "c", .add ["b", "a"]])).pick "k" = .peer owner := by
  have hhistory : ∀ peer ∈ ({"a", "b"} : Finset String), Leaves 2 Ring.defaultHash
      (if peer = "a" then [.set ["b", "a"]] else
        [.add ["a", "c"], .remove "c", .add ["b", "a"]]) {"a", "b"} := by
    intro peer _
    split
    · exact ⟨by decide, by decide +kernel⟩
    · exact ⟨by decide, by decide +kernel⟩
  obtain ⟨owner, howner, -, hothers⟩ := (owner_independent_of_history (by decide) Ring.defaultHash
    {"a", "b"}).2.2 ⟨"a", by decide⟩ _ hhistory "k"
  exact ⟨owner, howner, hothers⟩

end ReadThrough.Membership
