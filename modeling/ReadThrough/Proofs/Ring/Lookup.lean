import ReadThrough.Proofs.Ring.Contents

/-!
# What a lookup finds

A point of the circle is served by the placement that is met first on the way round from it. Read
`serving?_eq_some_iff` first: it says what a lookup finds without reference to how it is found.
`nearest_served` says the same in numbers, for every ring that changes of the members lead to.
-/

namespace ReadThrough.Ring

/-! ## The way round the circle -/

/-- A position is met on the way round the circle from one point up to and including another. -/
def OnArc (start stop position : UInt64) : Prop :=
  if start ≤ stop then start ≤ position ∧ position ≤ stop else start ≤ position ∨ position ≤ stop

instance (start stop position : UInt64) : Decidable (OnArc start stop position) := by
  unfold OnArc
  infer_instance

variable {start stop position : UInt64}

/-- What is met on the way to a point is no further from the start than that point. -/
theorem onArc_iff : OnArc start stop position ↔ position - start ≤ stop - start := by
  have hstart := start.toNat_lt
  have hstop := stop.toNat_lt
  have hposition := position.toNat_lt
  unfold OnArc
  split <;> simp only [UInt64.le_iff_toNat_le, UInt64.toNat_sub] at * <;> omega

@[refl] theorem OnArc.refl (start stop : UInt64) : OnArc start stop stop :=
  onArc_iff.2 (UInt64.le_refl _)

theorem OnArc.trans {next : UInt64} (hnext : OnArc start stop next)
    (h : OnArc start next position) : OnArc start stop position :=
  onArc_iff.2 (UInt64.le_trans (onArc_iff.1 h) (onArc_iff.1 hnext))

/-- Two positions that are each met on the way to the other are the same. -/
theorem OnArc.antisymm (h : OnArc start stop position) (hback : OnArc start position stop) :
    position = stop :=
  (UInt64.sub_left_inj start).1 (UInt64.le_antisymm (onArc_iff.1 h) (onArc_iff.1 hback))

/-- What is not met on the way to a point lies beyond it. -/
theorem onArc_of_not (h : ¬OnArc start stop position) : OnArc start position stop :=
  onArc_iff.2 (UInt64.le_of_lt (UInt64.not_le.1 fun hle ↦ h (onArc_iff.2 hle)))

/-! ## What a lookup finds -/

variable {ring : Ring} {point : UInt64} {p q : Placement} {member : String}

theorem serving?_eq_or (ring : Ring) (point : UInt64) : ring.serving? point =
    (ring.placements.find? fun p ↦ point ≤ p.position).or ring.placements.head? := by
  rw [serving?, Option.orElse_eq_orElse, Option.orElse_eq_or]

theorem mem_of_serving? (h : ring.serving? point = some p) : p ∈ ring.placements := by
  rw [serving?_eq_or, Option.or_eq_some_iff] at h
  rcases h with hfind | ⟨-, hhead⟩
  · exact List.mem_of_find?_eq_some hfind
  · exact List.mem_of_head? hhead

/-- The placement that serves a point is met on the way to every other one. -/
theorem onArc_of_serving? (hring : Ordered ring.placements) (h : ring.serving? point = some p)
    (hq : q ∈ ring.placements) : OnArc point q.position p.position := by
  rw [serving?_eq_or, Option.or_eq_some_iff] at h
  rcases h with hfind | ⟨hfind, hhead⟩
  · -- the first one at or after the point
    obtain ⟨hpoint, before, after, hplacements, hbefore⟩ := List.find?_eq_some_iff_append.1 hfind
    rw [Ordered, hplacements, List.pairwise_append, List.pairwise_cons] at hring
    rw [hplacements, List.mem_append, List.mem_cons] at hq
    have hpoint : point ≤ p.position := by simpa using hpoint
    unfold OnArc
    rcases hq with hq | rfl | hq
    · have hlt : ¬point ≤ q.position := by simpa using hbefore q hq
      rw [if_neg hlt]
      exact .inl hpoint
    · rw [if_pos hpoint]
      exact ⟨hpoint, UInt64.le_refl _⟩
    · have hle := UInt64.le_of_lt (hring.2.1.1 q hq)
      rw [if_pos (UInt64.le_trans hpoint hle)]
      exact ⟨hpoint, hle⟩
  · -- none is at or after the point, and the smallest one serves it
    have hlt : ¬point ≤ q.position := by simpa using List.find?_eq_none.1 hfind q hq
    obtain ⟨rest, hplacements⟩ := List.head?_eq_some_iff.1 hhead
    rw [OnArc, if_neg hlt]
    rw [Ordered, hplacements, List.pairwise_cons] at hring
    rw [hplacements, List.mem_cons] at hq
    rcases hq with rfl | hq
    · exact .inr (UInt64.le_refl _)
    · exact .inr (UInt64.le_of_lt (hring.1 q hq))

/-- A point is served unless the ring is empty. -/
theorem exists_serving?_of_isEmpty (hsome : ring.isEmpty = false) (point : UInt64) :
    ∃ p, ring.serving? point = some p := by
  obtain ⟨q, rest, hplacements⟩ := List.exists_cons_of_ne_nil (List.isEmpty_eq_false_iff.1 hsome)
  obtain ⟨p, -, hserving⟩ := exists_serving? (hplacements ▸ List.mem_cons_self) point
  exact ⟨p, hserving⟩

/-- There is one placement at a position. -/
theorem position_inj (hring : Ordered ring.placements) (hp : p ∈ ring.placements)
    (hq : q ∈ ring.placements) (heq : p.position = q.position) : p = q := by
  have hserving := serving?_position hring hp
  rw [heq, serving?_position hring hq] at hserving
  exact (Option.some.inj hserving).symm

/-- A point is served by the placement that is met on the way to every other one. -/
theorem serving?_eq_some_iff (hring : Ordered ring.placements) : ring.serving? point = some p ↔
    p ∈ ring.placements ∧ ∀ q ∈ ring.placements, OnArc point q.position p.position := by
  constructor
  · exact fun h ↦ ⟨mem_of_serving? h, fun q hq ↦ onArc_of_serving? hring h hq⟩
  · rintro ⟨hp, hfirst⟩
    obtain ⟨q, hq, hserving⟩ := exists_serving? hp point
    have hposition := (hfirst q hq).antisymm (onArc_of_serving? hring hserving hp)
    rw [hserving, position_inj hring hp hq hposition]

theorem ordered_erase (hring : Ordered ring.placements) (member : String) :
    Ordered (ring.erase member).placements :=
  hring.filter _

/-! ## Rings that changes lead to -/

/-- A ring that is reached from one without members by adding and removing members. -/
inductive Reached (replicas : Nat) (hash : Hash) : Ring → Prop
  | empty : Reached replicas hash (.empty replicas hash)
  | add {ring : Ring} : Reached replicas hash ring → ∀ members : List String,
      Reached replicas hash (ring.insertMany members)
  | remove {ring : Ring} : Reached replicas hash ring → ∀ member : String,
      Reached replicas hash (ring.erase member)

namespace Reached

variable {replicas : Nat} {hash : Hash}

theorem ordered (h : Reached replicas hash ring) : Ordered ring.placements := by
  induction h with
  | empty => exact ordered_empty replicas hash
  | add _ members ih => exact ordered_insertMany ih members
  | remove _ member ih => exact ordered_erase ih member

theorem replicas_eq (h : Reached replicas hash ring) : ring.replicas = replicas := by
  induction h with
  | empty => rfl
  | add _ members ih => exact (replicas_insertMany _ members).trans ih
  | remove _ _ ih => exact ih

theorem hash_eq (h : Reached replicas hash ring) : ring.hash = hash := by
  induction h with
  | empty => rfl
  | add _ members ih => exact (hash_insertMany _ members).trans ih
  | remove _ _ ih => exact ih

end Reached

/-! ## The nearest position -/

/-- How far a position lies ahead of a point: the difference of the two modulo the number of
words. -/
def ahead (point position : UInt64) : Int :=
  ((position.toNat : Int) - point.toNat) % UInt64.size

theorem toNat_sub_eq_ahead (point position : UInt64) :
    ((position - point).toNat : Int) = ahead point position := by
  have hpoint := point.toNat_lt
  have hposition := position.toNat_lt
  rw [UInt64.toNat_sub]
  simp only [ahead, UInt64.size]
  omega

/-- What is met on the way to a position lies no further ahead. -/
theorem onArc_iff_ahead_le :
    OnArc start stop position ↔ ahead start position ≤ ahead start stop := by
  rw [onArc_iff, UInt64.le_iff_toNat_le, ← toNat_sub_eq_ahead, ← toNat_sub_eq_ahead]
  omega

/-- The number that decimal digits write. -/
def decimalHash : Hash := fun digits ↦
  digits.foldl (fun number digit ↦ 10 * number + (digit.toUInt64 - 48)) 0

/-- A lookup goes to the nearest position clockwise. On a ring that any additions and removals led
to, a key has no owner exactly when there is no position, and otherwise one placement lies strictly
less far ahead of the hash of the key than any other one, and its owner is the owner of the key. -/
theorem nearest_served {replicas : Nat} {hash : Hash} (h : Reached replicas hash ring)
    (key : List UInt8) :
    (ring.owner? key = none ↔ ring.placements = []) ∧
    (ring.placements ≠ [] → ∃ nearest ∈ ring.placements,
      ring.owner? key = some nearest.owner ∧
      ∀ other ∈ ring.placements, other ≠ nearest →
        ahead (hash key) nearest.position < ahead (hash key) other.position) := by
  have hfound : ring.placements ≠ [] → ∃ nearest ∈ ring.placements,
      ring.serving? (hash key) = some nearest := by
    intro hsome
    obtain ⟨p, rest, hplacements⟩ := List.exists_cons_of_ne_nil hsome
    exact exists_serving? (hplacements ▸ List.mem_cons_self) _
  rw [owner?, h.hash_eq]
  constructor
  · rw [Option.map_eq_none_iff]
    constructor
    · intro hnone
      by_contra hsome
      obtain ⟨nearest, -, hserving⟩ := hfound hsome
      rw [hnone] at hserving
      cases hserving
    · intro hempty
      simp [serving?, hempty]
  · intro hsome
    obtain ⟨nearest, hmem, hserving⟩ := hfound hsome
    refine ⟨nearest, hmem, by rw [hserving, Option.map_some], fun other hother hne ↦ ?_⟩
    have hmet := onArc_of_serving? h.ordered hserving hother
    refine lt_of_le_of_ne (onArc_iff_ahead_le.1 hmet) fun heq ↦ hne ?_
    -- equally far ahead, the two are met on the way to each other
    have hback := onArc_iff_ahead_le.2 (Int.le_of_eq heq.symm)
    exact position_inj h.ordered hother hmem (hmet.antisymm hback).symm

/-- Of nine positions up to 26 the smallest one is nearest to the point 27, past all of them. -/
theorem nearest_served_wrapping : ∃ ring, Reached 3 decimalHash ring ∧
    ring.owner? (utf8 "27") = some "2" ∧
    ∀ other ∈ ring.placements, other ≠ ⟨2, "2"⟩ →
      ahead (decimalHash (utf8 "27")) 2 < ahead (decimalHash (utf8 "27")) other.position := by
  have hring : Reached 3 decimalHash ((empty 3 decimalHash).insertMany ["6", "4", "2"]) :=
    Reached.empty.add _
  obtain ⟨nearest, hmem, howner, hfirst⟩ :=
    (nearest_served hring (utf8 "27")).2 (by decide +kernel)
  have hnone : ∀ p ∈ ((empty 3 decimalHash).insertMany ["6", "4", "2"]).placements,
      ¬ahead (decimalHash (utf8 "27")) p.position < ahead (decimalHash (utf8 "27")) 2 := by
    decide +kernel
  have hnearest : nearest = ⟨2, "2"⟩ := by
    by_contra hother
    exact hnone nearest hmem (hfirst ⟨2, "2"⟩ (by decide +kernel) (Ne.symm hother))
  subst hnearest
  exact ⟨_, hring, howner, hfirst⟩

end ReadThrough.Ring
