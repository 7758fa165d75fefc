import ReadThrough.Proofs.Ring.Lookup

/-!
# What a change of the members moves

A member that joins takes over those points at which the way to the old placement passes one of its
replicas, and a member that leaves gives up only the points that it served. So no key moves between
two members that stay.
-/

namespace ReadThrough.Ring

variable {ring : Ring} {point : UInt64} {p q : Placement} {member : String}

/-! ## One change -/

/-- Some replica of a member is met on the way from a point to another. -/
def Intercepts (replicas : Nat) (hash : Hash) (member : String) (start stop : UInt64) : Prop :=
  ∃ position, HasReplica replicas hash member position ∧ OnArc start stop position

/-- A member that joins serves the points at which the way to the old placement passes one of its
replicas. -/
theorem serving?_insert_of_intercepts (hring : Ordered ring.placements)
    (hp : ring.serving? point = some p)
    (hmet : Intercepts ring.replicas ring.hash member point p.position) :
    ((ring.insert member).serving? point).map Placement.owner = some member := by
  obtain ⟨position, hreplica, harc⟩ := hmet
  have hnew : ⟨position, member⟩ ∈ (ring.insert member).placements :=
    (mem_insert hring).2 (.inl ⟨rfl, hreplica⟩)
  obtain ⟨q, hq, hserving⟩ := exists_serving? hnew point
  have hfirst := onArc_of_serving? (ordered_insert hring member) hserving hnew
  rcases (mem_insert hring).1 hq with ⟨howner, -⟩ | ⟨hold, hfree⟩
  · rw [hserving, Option.map_some, howner]
  · -- an old placement is not met before the replica, so it stands at the same position
    have hback := (onArc_of_serving? hring hp hold).trans harc
    rw [hback.antisymm hfirst] at hreplica
    exact absurd hreplica hfree

/-- A member that joins leaves the other points to the placements that served them. -/
theorem serving?_insert_of_not (hring : Ordered ring.placements)
    (hp : ring.serving? point = some p)
    (hmissed : ¬Intercepts ring.replicas ring.hash member point p.position) :
    (ring.insert member).serving? point = some p := by
  refine (serving?_eq_some_iff (ordered_insert hring member)).2 ⟨?_, ?_⟩
  · exact (mem_insert hring).2 (.inr ⟨mem_of_serving? hp, fun hreplica ↦
      hmissed ⟨p.position, hreplica, .refl point p.position⟩⟩)
  · intro q hq
    rcases (mem_insert hring).1 hq with ⟨-, hreplica⟩ | ⟨hold, -⟩
    · exact onArc_of_not fun harc ↦ hmissed ⟨q.position, hreplica, harc⟩
    · exact onArc_of_serving? hring hp hold

/-- A member that leaves keeps no point from the placement of another that served it. -/
theorem serving?_erase_of_ne (hring : Ordered ring.placements) (hp : ring.serving? point = some p)
    (hother : p.owner ≠ member) : (ring.erase member).serving? point = some p := by
  refine (serving?_eq_some_iff (ordered_erase hring member)).2 ⟨?_, ?_⟩
  · exact mem_erase.2 ⟨mem_of_serving? hp, hother⟩
  · exact fun q hq ↦ onArc_of_serving? hring hp (mem_erase.1 hq).1

namespace Reached

variable {replicas : Nat} {hash : Hash}

theorem owner?_insert (h : Reached replicas hash ring) {key : List UInt8}
    (hp : ring.serving? (hash key) = some p) (member : String) :
    (Intercepts replicas hash member (hash key) p.position →
      (ring.insert member).owner? key = some member) ∧
    (¬Intercepts replicas hash member (hash key) p.position →
      (ring.insert member).owner? key = ring.owner? key) := by
  obtain rfl := h.replicas_eq
  obtain rfl := h.hash_eq
  refine ⟨fun hmet ↦ serving?_insert_of_intercepts h.ordered hp hmet, fun hmissed ↦ ?_⟩
  exact congrArg _ ((serving?_insert_of_not h.ordered hp hmissed).trans hp.symm)

theorem owner?_erase (h : Reached replicas hash ring) {key : List UInt8} {owner : String}
    (howner : ring.owner? key = some owner) (hother : owner ≠ member) :
    (ring.erase member).owner? key = some owner := by
  obtain ⟨p, hserving, rfl⟩ := Option.map_eq_some_iff.1 howner
  exact Option.map_eq_some_iff.2 ⟨p, serving?_erase_of_ne h.ordered hserving hother, rfl⟩

end Reached

/-- A change of one member disrupts no more than it must. A member that joins a ring that is not
empty owns exactly those further keys at whose points the way round to the position that served
them passes one of its replicas, that position included, and every other key keeps its owner. A
member that leaves takes no key from another. So no key moves between two other members. -/
theorem disruption_minimal {replicas : Nat} {hash : Hash} (h : Reached replicas hash ring)
    (member : String) (key : List UInt8) :
    (ring.isEmpty = false → ∃ served, ring.serving? (hash key) = some served ∧
      (Intercepts replicas hash member (hash key) served.position →
        (ring.insert member).owner? key = some member) ∧
      (¬Intercepts replicas hash member (hash key) served.position →
        (ring.insert member).owner? key = ring.owner? key)) ∧
    (∀ owner, ring.owner? key = some owner → owner ≠ member →
      (ring.erase member).owner? key = some owner) ∧
    ∀ changed ∈ [ring.insert member, ring.erase member], ∀ before after,
      ring.owner? key = some before → changed.owner? key = some after → before ≠ after →
        before = member ∨ after = member := by
  refine ⟨?_, fun owner howner hother ↦ h.owner?_erase howner hother, ?_⟩
  · intro hsome
    obtain ⟨served, hserving⟩ := exists_serving?_of_isEmpty hsome (hash key)
    exact ⟨served, hserving, h.owner?_insert hserving member⟩
  · intro changed hchanged before after hbefore hafter hmoved
    rw [List.mem_pair] at hchanged
    rcases hchanged with rfl | rfl
    · right
      obtain ⟨p, hserving, -⟩ := Option.map_eq_some_iff.1 hbefore
      rw [h.hash_eq] at hserving
      obtain ⟨hmet, hmissed⟩ := h.owner?_insert hserving member
      by_cases hintercepts : Intercepts replicas hash member (hash key) p.position
      · exact Option.some.inj (hafter.symm.trans (hmet hintercepts))
      · have hsame := hafter.symm.trans ((hmissed hintercepts).trans hbefore)
        exact absurd (Option.some.inj hsame).symm hmoved
    · left
      by_contra hother
      have hsame := hafter.symm.trans (h.owner?_erase hbefore hother)
      exact hmoved (Option.some.inj hsame).symm

/-- A key past the largest position goes from the smallest one to a member that joins before that,
on a ring where one member took a position of another. The keys of others stay when it leaves. -/
theorem disruption_minimal_past_largest : ∃ ring, Reached 3 decimalHash ring ∧
    ring.owner? (utf8 "218") = some "2" ∧ (ring.insert "1").owner? (utf8 "218") = some "1" ∧
    ((ring.insert "1").erase "1").owner? (utf8 "13") = some "16" := by
  have hring : Reached 3 decimalHash
      ((((empty 3 decimalHash).insertMany ["6", "4", "2"]).insertMany ["16"]).erase "4") :=
    ((Reached.empty.add _).add _).remove _
  obtain ⟨served, hserving, hmet, -⟩ :=
    (disruption_minimal hring "1" (utf8 "218")).1 (by decide +kernel)
  have hserved : served = ⟨2, "2"⟩ :=
    Option.some.inj (hserving.symm.trans (by decide +kernel))
  refine ⟨_, hring, by decide +kernel, hmet ?_, ?_⟩
  · exact ⟨1, ⟨0, by decide, by decide +kernel⟩, hserved ▸ by decide +kernel⟩
  · exact (disruption_minimal (hring.add ["1"]) "1" (utf8 "13")).2.1 "16" (by decide +kernel)
      (by decide)

end ReadThrough.Ring
