import Mathlib.Data.Finset.Basic
import Mathlib.Data.Finset.Lattice.Lemmas
import Mathlib.Data.List.Sort
import Mathlib.Data.String.Basic
import ReadThrough.Ring.Basic

/-!
# The contents of a ring

The placements of a ring stand in increasing order of position, so a ring is determined by which
placements it has. `Covers` says that these are the replicas of some members and no others. It is
kept by everything that changes a ring, as long as no two members share a position, and
`Covers.unique` says that it leaves no choice.
-/

namespace ReadThrough.Ring

/-! ## Ordered placements -/

/-- The placements stand in increasing order of position. -/
def Ordered (placements : List Placement) : Prop :=
  placements.Pairwise fun p q ↦ p.position < q.position

instance : Std.Irrefl fun p q : Placement ↦ p.position < q.position :=
  ⟨fun p ↦ UInt64.lt_irrefl p.position⟩

instance : Std.Antisymm fun p q : Placement ↦ p.position < q.position :=
  ⟨fun _ _ hlt hgt ↦ absurd hgt (UInt64.lt_asymm hlt)⟩

/-- The placements after one is put in are that one, and those at other positions. -/
theorem mem_place {new p : Placement} {placements : List Placement} (h : Ordered placements) :
    p ∈ place new placements ↔ p = new ∨ p ∈ placements ∧ p.position ≠ new.position := by
  induction placements with
  | nil => simp [place]
  | cons old rest ih =>
      obtain ⟨hold, hrest⟩ := List.pairwise_cons.1 h
      unfold place
      split
      · next hlt =>
        -- every old placement stands after the new one
        have hafter : ∀ q ∈ old :: rest, q.position ≠ new.position := by
          intro q hq heq
          rcases List.mem_cons.1 hq with rfl | hq
          · exact UInt64.lt_irrefl _ (heq ▸ hlt)
          · exact UInt64.lt_irrefl _ (heq ▸ UInt64.lt_trans hlt (hold q hq))
        rw [List.mem_cons]
        exact or_congr_right ⟨fun hp ↦ ⟨hp, hafter p hp⟩, And.left⟩
      · split
        · next heq =>
          have hafter : ∀ q ∈ rest, q.position ≠ new.position := fun q hq hsame ↦
            UInt64.lt_irrefl _ (hsame.trans heq ▸ hold q hq)
          rw [List.mem_cons, List.mem_cons]
          refine or_congr_right ⟨fun hp ↦ ⟨.inr hp, hafter p hp⟩, ?_⟩
          rintro ⟨rfl | hp, hne⟩
          · exact absurd heq.symm hne
          · exact hp
        · next hne =>
          rw [List.mem_cons, List.mem_cons, ih hrest]
          constructor
          · rintro (rfl | rfl | ⟨hp, hother⟩)
            · exact .inr ⟨.inl rfl, fun hsame ↦ hne hsame.symm⟩
            · exact .inl rfl
            · exact .inr ⟨.inr hp, hother⟩
          · rintro (rfl | ⟨rfl | hp, hother⟩)
            · exact .inr (.inl rfl)
            · exact .inl rfl
            · exact .inr (.inr ⟨hp, hother⟩)

/-- Putting a placement in keeps the order. -/
theorem ordered_place (new : Placement) {placements : List Placement} (h : Ordered placements) :
    Ordered (place new placements) := by
  induction placements with
  | nil => simp [place, Ordered]
  | cons old rest ih =>
      obtain ⟨hold, hrest⟩ := List.pairwise_cons.1 h
      unfold place
      split
      · next hlt =>
        refine List.pairwise_cons.2 ⟨?_, h⟩
        intro q hq
        rcases List.mem_cons.1 hq with rfl | hq
        · exact hlt
        · exact UInt64.lt_trans hlt (hold q hq)
      · next hnlt =>
        split
        · next heq => exact List.pairwise_cons.2 ⟨fun q hq ↦ heq ▸ hold q hq, hrest⟩
        · next hne =>
          refine List.pairwise_cons.2 ⟨?_, ih hrest⟩
          intro q hq
          rcases (mem_place hrest).1 hq with rfl | ⟨hq, -⟩
          · exact UInt64.lt_of_le_of_ne (UInt64.not_lt.1 hnlt) fun hsame ↦ hne hsame.symm
          · exact hold q hq

theorem ordered_foldl_place (news : List Placement) {placements : List Placement}
    (h : Ordered placements) : Ordered (news.foldl (fun ps p ↦ place p ps) placements) := by
  induction news generalizing placements with
  | nil => exact h
  | cons new rest ih => exact ih (ordered_place new h)

/-- The placements after several are put in are these, and those at other positions, if no two of
the new ones are at odds about a position. -/
theorem mem_foldl_place {news placements : List Placement} {p : Placement} (h : Ordered placements)
    (hsame : ∀ a ∈ news, ∀ b ∈ news, a.position = b.position → a = b) :
    p ∈ news.foldl (fun ps p ↦ place p ps) placements ↔
      p ∈ news ∨ p ∈ placements ∧ ∀ new ∈ news, p.position ≠ new.position := by
  induction news generalizing placements with
  | nil => simp
  | cons new rest ih =>
      have hrest : ∀ a ∈ rest, ∀ b ∈ rest, a.position = b.position → a = b := fun a ha b hb ↦
        hsame a (List.mem_cons_of_mem _ ha) b (List.mem_cons_of_mem _ hb)
      rw [List.foldl_cons, ih (ordered_place new h) hrest, mem_place h]
      simp only [List.mem_cons, forall_eq_or_imp]
      constructor
      · rintro (hp | ⟨rfl | ⟨hp, hne⟩, hothers⟩)
        · exact .inl (.inr hp)
        · exact .inl (.inl rfl)
        · exact .inr ⟨hp, hne, hothers⟩
      · rintro ((rfl | hp) | ⟨hp, hne, hothers⟩)
        · -- a later one at the same position is the same
          by_cases hlater : p ∈ rest
          · exact .inl hlater
          · refine .inr ⟨.inl rfl, fun other hother heq ↦ hlater ?_⟩
            rw [hsame p List.mem_cons_self other (List.mem_cons_of_mem _ hother) heq]
            exact hother
        · exact .inl hp
        · exact .inr ⟨.inr ⟨hp, hne⟩, hothers⟩

/-! ## Changes of a ring -/

/-- A replica of a member has this position. -/
def HasReplica (replicas : Nat) (hash : Hash) (member : String) (position : UInt64) : Prop :=
  ∃ index < replicas, position = hash (replicaLabel index member)

variable {ring : Ring} {member : String} {p : Placement}

theorem mem_placementsOf : p ∈ ring.placementsOf member ↔
    p.owner = member ∧ HasReplica ring.replicas ring.hash member p.position := by
  obtain ⟨position, owner⟩ := p
  simp only [placementsOf, List.mem_map, List.mem_range, Placement.mk.injEq, HasReplica]
  constructor
  · rintro ⟨index, hlt, rfl, rfl⟩
    exact ⟨rfl, index, hlt, rfl⟩
  · rintro ⟨rfl, index, hlt, rfl⟩
    exact ⟨index, hlt, rfl, rfl⟩

theorem ordered_insert (h : Ordered ring.placements) (member : String) :
    Ordered (ring.insert member).placements :=
  ordered_foldl_place _ h

/-- The placements after a member is placed are its replicas, and those at other positions. -/
theorem mem_insert (h : Ordered ring.placements) : p ∈ (ring.insert member).placements ↔
    p.owner = member ∧ HasReplica ring.replicas ring.hash member p.position ∨
      p ∈ ring.placements ∧ ¬HasReplica ring.replicas ring.hash member p.position := by
  have hsame : ∀ a ∈ ring.placementsOf member, ∀ b ∈ ring.placementsOf member,
      a.position = b.position → a = b := by
    intro a ha b hb hposition
    have howner := (mem_placementsOf.1 ha).1.trans (mem_placementsOf.1 hb).1.symm
    cases a
    cases b
    simp_all
  have hfree : (∀ new ∈ ring.placementsOf member, p.position ≠ new.position) ↔
      ¬HasReplica ring.replicas ring.hash member p.position := by
    constructor
    · exact fun h hreplica ↦ h ⟨p.position, member⟩ (mem_placementsOf.2 ⟨rfl, hreplica⟩) rfl
    · exact fun h new hnew heq ↦ h (heq ▸ (mem_placementsOf.1 hnew).2)
  rw [insert, mem_foldl_place h hsame, mem_placementsOf, hfree]

theorem mem_erase : p ∈ (ring.erase member).placements ↔
    p ∈ ring.placements ∧ p.owner ≠ member := by
  simp [erase]

@[simp] theorem replicas_insertMany (ring : Ring) (members : List String) :
    (ring.insertMany members).replicas = ring.replicas := by
  induction members generalizing ring with
  | nil => rfl
  | cons member rest ih => exact ih (ring.insert member)

@[simp] theorem hash_insertMany (ring : Ring) (members : List String) :
    (ring.insertMany members).hash = ring.hash := by
  induction members generalizing ring with
  | nil => rfl
  | cons member rest ih => exact ih (ring.insert member)

theorem insertMany_concat (ring : Ring) (members : List String) (member : String) :
    ring.insertMany (members ++ [member]) = (ring.insertMany members).insert member := by
  rw [insertMany, List.foldl_append, List.foldl_cons, List.foldl_nil, insertMany]

theorem ordered_empty (replicas : Nat) (hash : Hash) : Ordered (empty replicas hash).placements :=
  List.Pairwise.nil

theorem ordered_insertMany (h : Ordered ring.placements) (members : List String) :
    Ordered (ring.insertMany members).placements := by
  induction members generalizing ring with
  | nil => exact h
  | cons member rest ih => exact ih (ordered_insert h member)

/-! ## Lookups -/

/-- A point at which there is a placement is served by it. -/
theorem serving?_position (h : Ordered ring.placements) (hp : p ∈ ring.placements) :
    ring.serving? p.position = some p := by
  have hfind : ring.placements.find? (fun q ↦ p.position ≤ q.position) = some p := by
    obtain ⟨before, after, heq⟩ := List.append_of_mem hp
    rw [heq, List.find?_append, List.find?_eq_none.2, Option.none_or,
      List.find?_cons_of_pos (by simp)]
    intro q hq
    rw [Ordered, heq, List.pairwise_append] at h
    have hlt := h.2.2 q hq p List.mem_cons_self
    simpa using UInt64.not_le.2 hlt
  rw [serving?, hfind]
  rfl

/-- A point of a ring that is not empty is served by one of its placements. -/
theorem exists_serving? (hp : p ∈ ring.placements) (point : UInt64) :
    ∃ q ∈ ring.placements, ring.serving? point = some q := by
  cases hfind : ring.placements.find? fun q ↦ point ≤ q.position with
  | some q => exact ⟨q, List.mem_of_find?_eq_some hfind, by simp [serving?, hfind]⟩
  | none =>
      obtain ⟨q, rest, heq⟩ := List.exists_cons_of_ne_nil (List.ne_nil_of_mem hp)
      refine ⟨q, heq ▸ List.mem_cons_self, ?_⟩
      rw [serving?, hfind, heq]
      rfl

/-- The names after one is put in are that one and those before. -/
theorem mem_insertName {name other : String} {names : List String} :
    other ∈ insertName name names ↔ other = name ∨ other ∈ names := by
  induction names with
  | nil => simp [insertName]
  | cons first rest ih =>
      unfold insertName
      split
      · exact List.mem_cons
      · split
        · next heq =>
          subst heq
          simp
        · simp only [List.mem_cons, ih]
          exact or_left_comm

/-- Putting a name in keeps the order. -/
theorem pairwise_insertName (name : String) {names : List String}
    (h : names.Pairwise (· < ·)) : (insertName name names).Pairwise (· < ·) := by
  induction names with
  | nil => simp [insertName]
  | cons first rest ih =>
      obtain ⟨hfirst, hrest⟩ := List.pairwise_cons.1 h
      unfold insertName
      split
      · next hlt =>
        refine List.pairwise_cons.2 ⟨?_, h⟩
        intro other hother
        rcases List.mem_cons.1 hother with rfl | hother
        · exact hlt
        · exact lt_trans hlt (hfirst other hother)
      · next hnlt =>
        split
        · exact h
        · next hne =>
          refine List.pairwise_cons.2 ⟨?_, ih hrest⟩
          intro other hother
          rcases mem_insertName.1 hother with rfl | hother
          · exact lt_of_le_of_ne (not_lt.1 hnlt) fun hsame ↦ hne hsame.symm
          · exact hfirst other hother

/-- The members are named in increasing order. -/
theorem pairwise_members (ring : Ring) : ring.members.Pairwise (· < ·) := by
  have hfold : ∀ (placements : List Placement) (names : List String), names.Pairwise (· < ·) →
      (placements.foldl (fun names p ↦ insertName p.owner names) names).Pairwise (· < ·) := by
    intro placements
    induction placements with
    | nil => exact fun _ h ↦ h
    | cons p rest ih => exact fun names h ↦ ih _ (pairwise_insertName p.owner h)
  exact hfold ring.placements [] List.Pairwise.nil

/-- The members are the owners of placements. -/
theorem mem_members : member ∈ ring.members ↔ ∃ p ∈ ring.placements, p.owner = member := by
  have hfold : ∀ (placements : List Placement) (names : List String),
      member ∈ placements.foldl (fun names p ↦ insertName p.owner names) names ↔
        member ∈ names ∨ ∃ p ∈ placements, p.owner = member := by
    intro placements
    induction placements with
    | nil => simp
    | cons p rest ih =>
        intro names
        rw [List.foldl_cons, ih, mem_insertName, or_assoc, or_left_comm]
        simp [eq_comm]
  rw [members, hfold]
  simp

/-- Whoever owns a key is a member. -/
theorem mem_members_of_owner? {key : List UInt8} (h : ring.owner? key = some member) :
    member ∈ ring.members := by
  obtain ⟨p, hserving, rfl⟩ := Option.map_eq_some_iff.1 h
  have hsome : ∃ q, q ∈ ring.placements := by
    cases hplacements : ring.placements with
    | nil => simp [serving?, hplacements] at hserving
    | cons q rest => exact ⟨q, List.mem_cons_self⟩
  obtain ⟨q, hq⟩ := hsome
  obtain ⟨found, hfound, hserving'⟩ := exists_serving? hq (ring.hash key)
  obtain rfl := Option.some.inj (hserving.symm.trans hserving')
  exact mem_members.2 ⟨p, hfound, rfl⟩

/-! ## Rings that cover some members -/

/-- No two members share the position of a replica. -/
def Apart (replicas : Nat) (hash : Hash) (members : Finset String) : Prop :=
  ∀ first ∈ members, ∀ second ∈ members, ∀ position, HasReplica replicas hash first position →
    HasReplica replicas hash second position → first = second

theorem apart_iff_labels {replicas : Nat} {hash : Hash} {members : Finset String} :
    Apart replicas hash members ↔ ∀ first ∈ members, ∀ second ∈ members,
      ∀ i < replicas, ∀ j < replicas,
        hash (replicaLabel i first) = hash (replicaLabel j second) → first = second := by
  constructor
  · exact fun h first hfirst second hsecond i hi j hj heq ↦
      h first hfirst second hsecond _ ⟨i, hi, rfl⟩ ⟨j, hj, heq⟩
  · rintro h first hfirst second hsecond _ ⟨i, hi, rfl⟩ ⟨j, hj, heq⟩
    exact h first hfirst second hsecond i hi j hj heq

instance (replicas : Nat) (hash : Hash) (members : Finset String) :
    Decidable (Apart replicas hash members) :=
  decidable_of_iff' _ apart_iff_labels

theorem Apart.mono {replicas : Nat} {hash : Hash} {members others : Finset String}
    (h : Apart replicas hash members) (hsub : others ⊆ members) : Apart replicas hash others :=
  fun first hfirst second hsecond ↦ h first (hsub hfirst) second (hsub hsecond)

/-- A ring whose placements are the replicas of some members. -/
structure Covers (ring : Ring) (members : Finset String) : Prop where
  ordered : Ordered ring.placements
  mem : ∀ p, p ∈ ring.placements ↔
    p.owner ∈ members ∧ HasReplica ring.replicas ring.hash p.owner p.position

namespace Covers

variable {members : Finset String}

theorem empty (replicas : Nat) (hash : Hash) : Covers (.empty replicas hash) ∅ :=
  ⟨ordered_empty replicas hash, by simp [Ring.empty]⟩

/-- Placing a member adds it, if no member shares a position with it. -/
theorem insert (h : ring.Covers members)
    (hapart : Apart ring.replicas ring.hash (Insert.insert member members)) :
    (ring.insert member).Covers (Insert.insert member members) := by
  refine ⟨ordered_insert h.ordered member, ?_⟩
  intro p
  rw [mem_insert h.ordered, h.mem, Finset.mem_insert]
  constructor
  · rintro (⟨rfl, hreplica⟩ | ⟨⟨howner, hreplica⟩, -⟩)
    · exact ⟨.inl rfl, hreplica⟩
    · exact ⟨.inr howner, hreplica⟩
  · rintro ⟨rfl | howner, hreplica⟩
    · exact .inl ⟨rfl, hreplica⟩
    · by_cases hshared : HasReplica ring.replicas ring.hash member p.position
      · have heq := hapart p.owner (Finset.mem_insert_of_mem howner) member
          (Finset.mem_insert_self _ _) p.position hreplica hshared
        exact .inl ⟨heq, hshared⟩
      · exact .inr ⟨⟨howner, hreplica⟩, hshared⟩

/-- Placing several members adds them, if no two of all members share a position. -/
theorem insertMany (h : ring.Covers members) (names : List String)
    (hapart : Apart ring.replicas ring.hash (members ∪ names.toFinset)) :
    (ring.insertMany names).Covers (members ∪ names.toFinset) := by
  induction names generalizing ring members with
  | nil => simpa [Ring.insertMany] using h
  | cons name rest ih =>
      have hunion :
          members ∪ (name :: rest).toFinset = Insert.insert name members ∪ rest.toFinset := by
        rw [List.toFinset_cons, Finset.union_insert, Finset.insert_union]
      rw [hunion] at hapart ⊢
      exact ih (h.insert (hapart.mono Finset.subset_union_left)) hapart

/-- Taking a member off the ring leaves the others. -/
theorem erase (h : ring.Covers members) (member : String) :
    (ring.erase member).Covers (members.erase member) := by
  refine ⟨h.ordered.filter _, ?_⟩
  intro p
  rw [mem_erase, h.mem, Finset.mem_erase, and_right_comm, and_comm (a := p.owner ∈ members)]
  exact Iff.rfl

/-- Two rings that cover the same members have the same placements. -/
theorem unique {other : Ring} (h : ring.Covers members) (hother : other.Covers members)
    (hreplicas : other.replicas = ring.replicas) (hhash : other.hash = ring.hash) :
    other = ring := by
  have hplacements : other.placements = ring.placements := by
    refine hother.ordered.eq_of_mem_iff h.ordered fun p ↦ ?_
    rw [hother.mem, h.mem, hreplicas, hhash]
  cases ring
  cases other
  simp_all

/-- The members of a ring are those that it covers, if they have replicas at all. -/
theorem mem_members (h : ring.Covers members) (hreplicas : 0 < ring.replicas) :
    member ∈ ring.members ↔ member ∈ members := by
  rw [Ring.mem_members]
  constructor
  · rintro ⟨p, hp, rfl⟩
    exact ((h.mem p).1 hp).1
  · intro hmember
    exact ⟨⟨ring.hash (replicaLabel 0 member), member⟩, (h.mem _).2 ⟨hmember, 0, hreplicas, rfl⟩,
      rfl⟩

/-- A key has an owner among the members, if they have replicas at all. -/
theorem exists_owner (h : ring.Covers members) (hreplicas : 0 < ring.replicas)
    (hmembers : members.Nonempty) (key : List UInt8) :
    ∃ owner ∈ members, ring.owner? key = some owner := by
  obtain ⟨member, hmember⟩ := hmembers
  obtain ⟨p, hp, -⟩ := Ring.mem_members.1 ((h.mem_members hreplicas).2 hmember)
  obtain ⟨q, hq, hserving⟩ := exists_serving? hp (ring.hash key)
  exact ⟨q.owner, ((h.mem q).1 hq).1, by rw [owner?, hserving, Option.map_some]⟩

end Covers

end ReadThrough.Ring
