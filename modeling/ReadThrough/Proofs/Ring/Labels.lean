import Mathlib.Data.Finset.Card
import Mathlib.Data.Finset.Prod
import ReadThrough.Proofs.Ring.Contents
import ReadThrough.Proofs.Text.Utf8

/-!
# Labels of replicas

The label of a replica is its decimal index followed by the name of the member, with nothing in
between. Two members share a label if one of them is the other with digits in front that continue
an index: replica 1 of `0peer` and replica 10 of `peer` are both labelled `10peer`. `Shadows` is
exactly this relation. Without it, and with a hash that tells the labels apart, a ring has as many
positions as there are replicas and the order in which members are placed does not matter.
-/

namespace ReadThrough

namespace Ring

/-! ## Shared labels -/

/-- The first member is the second one after digits that continue the index of a replica, so that
a replica of the first has the label of a replica of the second. -/
def Shadows (replicas : Nat) (first second : String) : Prop :=
  ∃ i < replicas, ∃ j < replicas, ∃ digits, digits ≠ "" ∧
    toString j = toString i ++ digits ∧ first = digits ++ second

variable {replicas i j : Nat} {first second member : String}

theorem toString_nat_inj : toString i = toString j ↔ i = j := by
  constructor
  · intro h
    have hdigits : Nat.toDigits 10 i = Nat.toDigits 10 j := by
      rw [← Nat.toList_repr, ← Nat.toList_repr]
      exact congrArg String.toList h
    rw [← Nat.ofDigitChars_toDigits (b := 10) (n := i) (by decide) (by decide), hdigits,
      Nat.ofDigitChars_toDigits (by decide) (by decide)]
  · exact fun h ↦ h ▸ rfl

/-- A member has different labels for its replicas. -/
theorem index_eq_of_label_eq (h : replicaLabel i member = replicaLabel j member) : i = j :=
  toString_nat_inj.1 ((String.append_left_inj member).1 (utf8_inj.1 h))

/-- A label that is longer by its index than another one shows a shadow. -/
theorem shadows_of_append (hi : i < replicas) (hj : j < replicas) (hne : first ≠ second)
    {digits : List Char} (hindex : (toString j).toList = (toString i).toList ++ digits)
    (hname : first.toList = digits ++ second.toList) : Shadows replicas first second := by
  refine ⟨i, hi, j, hj, .ofList digits, ?_, ?_, ?_⟩
  · intro hdigits
    have hnil : digits = [] := by simpa using congrArg String.toList hdigits
    exact hne (String.toList_inj.1 (by rw [hname, hnil, List.nil_append]))
  · rw [← String.toList_inj, String.toList_append, String.toList_ofList, hindex]
  · rw [← String.toList_inj, String.toList_append, String.toList_ofList, hname]

/-- Two members share a label if one of them shadows the other. -/
theorem shared_label_iff (hne : first ≠ second) :
    (∃ i < replicas, ∃ j < replicas, replicaLabel i first = replicaLabel j second) ↔
      Shadows replicas first second ∨ Shadows replicas second first := by
  constructor
  · rintro ⟨i, hi, j, hj, h⟩
    have htext := congrArg String.toList (utf8_inj.1 h)
    rw [String.toList_append, String.toList_append, List.append_eq_append_iff] at htext
    rcases htext with ⟨digits, hindex, hname⟩ | ⟨digits, hindex, hname⟩
    · exact .inl (shadows_of_append hi hj hne hindex hname)
    · exact .inr (shadows_of_append hj hi hne.symm hindex hname)
  · rintro (⟨i, hi, j, hj, digits, -, hindex, rfl⟩ | ⟨i, hi, j, hj, digits, -, hindex, rfl⟩)
    · exact ⟨i, hi, j, hj, utf8_inj.2 (by rw [hindex, String.append_assoc])⟩
    · exact ⟨j, hj, i, hi, utf8_inj.2 (by rw [hindex, String.append_assoc])⟩

/-- No member shadows another if there are at most ten replicas, since their indices are single
digits. -/
theorem not_shadows_of_le_ten (h : replicas ≤ 10) : ¬Shadows replicas first second := by
  rintro ⟨i, hi, j, hj, digits, hdigits, hindex, -⟩
  have hlength : ∀ index < 10, (toString index : String).length = 1 := by decide
  have hsum := congrArg String.length hindex
  rw [String.length_append, hlength i (by omega), hlength j (by omega)] at hsum
  exact hdigits (String.length_eq_zero_iff.1 (by omega))

/-- A member that does not begin with a digit shadows no other. -/
theorem not_shadows_of_not_isDigit (h : ∀ c ∈ first.toList.head?, ¬c.isDigit) :
    ¬Shadows replicas first second := by
  rintro ⟨i, hi, j, hj, digits, hdigits, hindex, rfl⟩
  obtain ⟨c, rest, hcs⟩ : ∃ c rest, digits.toList = c :: rest :=
    List.exists_cons_of_ne_nil (by simpa using hdigits)
  have hmem : c ∈ Nat.toDigits 10 j := by
    have hlist := congrArg String.toList hindex
    rw [String.toList_append, hcs] at hlist
    rw [← Nat.toList_repr, show j.repr.toList = _ from hlist]
    simp
  exact h c (by simp [hcs]) (Nat.isDigit_of_mem_toDigits (by decide) (by decide) hmem)

/-! ## Positions of members -/

/-- The labels of the replicas of some members. -/
def labels (replicas : Nat) (members : Finset String) : Set (List UInt8) :=
  {label | ∃ member ∈ members, ∃ index < replicas, label = replicaLabel index member}

variable {hash : Hash} {members : List String}

theorem injOn_labels_iff {members : Finset String} : Set.InjOn hash (labels replicas members) ↔
    ∀ first ∈ members, ∀ i < replicas, ∀ second ∈ members, ∀ j < replicas,
      hash (replicaLabel i first) = hash (replicaLabel j second) →
        replicaLabel i first = replicaLabel j second := by
  constructor
  · exact fun h first hfirst i hi second hsecond j hj heq ↦
      h ⟨first, hfirst, i, hi, rfl⟩ ⟨second, hsecond, j, hj, rfl⟩ heq
  · rintro h _ ⟨first, hfirst, i, hi, rfl⟩ _ ⟨second, hsecond, j, hj, rfl⟩ heq
    exact h first hfirst i hi second hsecond j hj heq

instance (replicas : Nat) (hash : Hash) (members : Finset String) :
    Decidable (Set.InjOn hash (labels replicas members)) :=
  decidable_of_iff' _ injOn_labels_iff

/-- If the hash tells the labels apart, members share a position only if one shadows another. -/
theorem apart_iff_not_shadows {members : Finset String}
    (hhash : Set.InjOn hash (labels replicas members)) : Apart replicas hash members ↔
      ∀ first ∈ members, ∀ second ∈ members, ¬Shadows replicas first second := by
  rw [apart_iff_labels]
  constructor
  · rintro h first hfirst second hsecond ⟨i, hi, j, hj, digits, hdigits, hindex, rfl⟩
    have hlabel : replicaLabel i (digits ++ second) = replicaLabel j second :=
      utf8_inj.2 (by rw [hindex, String.append_assoc])
    have hsame := h _ hfirst second hsecond i hi j hj (congrArg hash hlabel)
    have hlength := congrArg String.length hsame
    rw [String.length_append] at hlength
    exact hdigits (String.length_eq_zero_iff.1 (by omega))
  · intro h first hfirst second hsecond i hi j hj heq
    by_contra hne
    have hlabel := hhash ⟨first, hfirst, i, hi, rfl⟩ ⟨second, hsecond, j, hj, rfl⟩ heq
    rcases (shared_label_iff hne).1 ⟨i, hi, j, hj, hlabel⟩ with hshadow | hshadow
    · exact h first hfirst second hsecond hshadow
    · exact h second hsecond first hfirst hshadow

/-- The positions of a ring after members are placed are those of their replicas, besides the ones
that were there. -/
theorem position_insertMany {ring : Ring} (h : Ordered ring.placements) (members : List String)
    (position : UInt64) :
    (∃ p ∈ (ring.insertMany members).placements, p.position = position) ↔
      (∃ p ∈ ring.placements, p.position = position) ∨
        ∃ member ∈ members, HasReplica ring.replicas ring.hash member position := by
  induction members generalizing ring with
  | nil => simp [insertMany]
  | cons member rest ih =>
      have hone : (∃ p ∈ (ring.insert member).placements, p.position = position) ↔
          (∃ p ∈ ring.placements, p.position = position) ∨
            HasReplica ring.replicas ring.hash member position := by
        simp only [mem_insert h]
        constructor
        · rintro ⟨p, ⟨-, hreplica⟩ | ⟨hp, -⟩, rfl⟩
          · exact .inr hreplica
          · exact .inl ⟨p, hp, rfl⟩
        · intro hposition
          by_cases hreplica : HasReplica ring.replicas ring.hash member position
          · exact ⟨⟨position, member⟩, .inl ⟨rfl, hreplica⟩, rfl⟩
          · obtain ⟨p, hp, rfl⟩ := hposition.resolve_right hreplica
            exact ⟨p, .inr ⟨hp, hreplica⟩, rfl⟩
      have hrest := ih (ordered_insert h member)
      rw [hone, or_assoc] at hrest
      rw [List.exists_mem_cons_iff]
      exact hrest

/-- A ring has one position for each hash of a label of its members. -/
theorem size_insertMany_empty (replicas : Nat) (hash : Hash) (members : List String) :
    ((empty replicas hash).insertMany members).size =
      ((Finset.range replicas ×ˢ members.toFinset).image
        fun replica ↦ hash (replicaLabel replica.1 replica.2)).card := by
  have hordered : Ordered ((empty replicas hash).insertMany members).placements :=
    ordered_insertMany (ordered_empty replicas hash) members
  have hnodup : (((empty replicas hash).insertMany members).placements.map
      Placement.position).Nodup := by
    refine List.Pairwise.map _ (fun p q hlt ↦ ?_) hordered
    exact UInt64.ne_of_lt hlt
  rw [size, ← List.length_map (f := Placement.position), ← List.toFinset_card_of_nodup hnodup]
  congr 1
  ext position
  rw [List.mem_toFinset, List.mem_map, position_insertMany (ordered_empty replicas hash)]
  simp only [empty, List.not_mem_nil, false_and, exists_false, false_or, HasReplica,
    Finset.mem_image, Finset.mem_product, Finset.mem_range, List.mem_toFinset, Prod.exists]
  constructor
  · rintro ⟨member, hmember, index, hlt, rfl⟩
    exact ⟨index, member, ⟨hlt, hmember⟩, rfl⟩
  · rintro ⟨index, member, ⟨hlt, hmember⟩, rfl⟩
    exact ⟨member, hmember, index, hlt, rfl⟩

/-- No position is lost if no two members share one. -/
theorem size_eq_iff_apart (hhash : Set.InjOn hash (labels replicas members.toFinset))
    (hnodup : members.Nodup) :
    ((empty replicas hash).insertMany members).size = replicas * members.length ↔
      Apart replicas hash members.toFinset := by
  have hcard : (Finset.range replicas ×ˢ members.toFinset).card = replicas * members.length := by
    rw [Finset.card_product, Finset.card_range, List.toFinset_card_of_nodup hnodup]
  rw [size_insertMany_empty, ← hcard, Finset.card_image_iff, apart_iff_labels]
  constructor
  · intro h first hfirst second hsecond i hi j hj heq
    have hsame := @h (i, first) (by simpa using ⟨hi, by simpa using hfirst⟩) (j, second)
      (by simpa using ⟨hj, by simpa using hsecond⟩) heq
    exact congrArg Prod.snd hsame
  · rintro h ⟨i, first⟩ hi ⟨j, second⟩ hj heq
    simp only [Finset.coe_product, Finset.coe_range, Set.mem_prod, Set.mem_Iio,
      Finset.mem_coe] at hi hj
    obtain rfl := h first hi.2 second hj.2 i hi.1 j hj.1 heq
    rw [index_eq_of_label_eq (hhash ⟨first, hi.2, i, hi.1, rfl⟩ ⟨first, hj.2, j, hj.1, rfl⟩ heq)]

/-! ## The order of placing -/

/-- The member that is placed last owns its positions. -/
theorem owner?_insert {ring : Ring} (h : Ordered ring.placements) {key : List UInt8}
    (hreplica : HasReplica ring.replicas ring.hash member (ring.hash key)) :
    (ring.insert member).owner? key = some member := by
  have hp : ⟨ring.hash key, member⟩ ∈ (ring.insert member).placements :=
    (mem_insert h).2 (.inl ⟨rfl, hreplica⟩)
  rw [owner?]
  exact congrArg (Option.map Placement.owner) (serving?_position (ordered_insert h member) hp)

/-- Members can be placed in such an order that one of them owns its positions. -/
theorem exists_order_owner (hmember : member ∈ members) (key : List UInt8)
    (hreplica : HasReplica replicas hash member (hash key)) :
    ∃ order : List String, order.Perm members ∧
      ((empty replicas hash).insertMany order).owner? key = some member := by
  refine ⟨members.erase member ++ [member], ?_, ?_⟩
  · exact (List.perm_append_singleton _ _).trans (List.perm_cons_erase hmember).symm
  · rw [insertMany_concat]
    refine owner?_insert (ordered_insertMany (ordered_empty replicas hash) _) ?_
    simpa [empty] using hreplica

/-- The order of placing does not matter if no two members share a position. -/
theorem owner?_perm_iff_apart :
    (∀ order : List String, order.Perm members → ∀ key : String,
      ((empty replicas hash).insertMany order).owner? (utf8 key) =
        ((empty replicas hash).insertMany members).owner? (utf8 key)) ↔
      Apart replicas hash members.toFinset := by
  constructor
  · intro h
    rw [apart_iff_labels]
    intro first hfirst second hsecond i hi j hj heq
    -- the label of the shared position is a key that the last of the two owns
    rw [List.mem_toFinset] at hfirst hsecond
    obtain ⟨order, horder, howner⟩ := exists_order_owner hfirst (replicaLabel i first)
      ⟨i, hi, rfl⟩
    obtain ⟨other, hother, hlast⟩ := exists_order_owner hsecond (replicaLabel i first)
      ⟨j, hj, heq⟩
    have hsame := (h order horder (toString i ++ first)).trans
      (h other hother (toString i ++ first)).symm
    exact Option.some.inj ((howner.symm.trans hsame).trans hlast)
  · intro h order horder key
    have hempty := Covers.empty replicas hash
    have hmembers := hempty.insertMany members (by simpa [empty] using h)
    have heq : order.toFinset = members.toFinset := List.toFinset_eq_of_perm _ _ horder
    have hplaced := hempty.insertMany order (by simpa [empty, heq] using h)
    rw [heq] at hplaced
    rw [hmembers.unique hplaced (by simp) (by simp)]

/-- A ring depends on its members alone exactly if no member shadows another: then every replica
has a position of its own and the order of placing does not matter, and otherwise positions are
lost and the order does matter. There is no shadow with at most ten replicas, nor between members
that do not begin with a digit. -/
theorem order_free_iff_not_shadows (hhash : Set.InjOn hash (labels replicas members.toFinset))
    (hnodup : members.Nodup) :
    ((∀ first ∈ members, ∀ second ∈ members, ¬Shadows replicas first second) ↔
      ∀ first ∈ members, ∀ second ∈ members, ∀ position, HasReplica replicas hash first position →
        HasReplica replicas hash second position → first = second) ∧
    ((∀ first ∈ members, ∀ second ∈ members, ¬Shadows replicas first second) ↔
      ∀ order : List String, order.Perm members →
        ((empty replicas hash).insertMany order).size = replicas * members.length) ∧
    ((∀ first ∈ members, ∀ second ∈ members, ¬Shadows replicas first second) ↔
      ∀ order : List String, order.Perm members → ∀ key : String,
        ((empty replicas hash).insertMany order).owner? (utf8 key) =
          ((empty replicas hash).insertMany members).owner? (utf8 key)) ∧
    (replicas ≤ 10 ∨ (∀ first ∈ members, ∀ c ∈ first.toList.head?, ¬c.isDigit) →
      ∀ first ∈ members, ∀ second ∈ members, ¬Shadows replicas first second) := by
  have hshadows : (∀ first ∈ members, ∀ second ∈ members, ¬Shadows replicas first second) ↔
      Apart replicas hash members.toFinset := by
    simp only [apart_iff_not_shadows hhash, List.mem_toFinset]
  refine ⟨hshadows.trans ?_, hshadows.trans ?_, hshadows.trans owner?_perm_iff_apart.symm, ?_⟩
  · simp only [Apart, List.mem_toFinset]
  · constructor
    · intro h order horder
      have hset : order.toFinset = members.toFinset := List.toFinset_eq_of_perm _ _ horder
      rw [← horder.length_eq, size_eq_iff_apart (hset ▸ hhash) (horder.nodup_iff.2 hnodup), hset]
      exact h
    · exact fun h ↦ (size_eq_iff_apart hhash hnodup).1 (h members (List.Perm.refl _))
  · rintro (hreplicas | hdigit) first hfirst second _
    · exact not_shadows_of_le_ten hreplicas
    · exact not_shadows_of_not_isDigit (hdigit first hfirst)

/-- Names that begin with letters keep all their positions and can be placed in any order. -/
theorem order_free_iff_not_shadows_letters :
    ((empty 11 defaultHash).insertMany ["b", "a"]).size = 22 ∧
    ((empty 11 defaultHash).insertMany ["b", "a"]).owner? (utf8 "10a") =
      ((empty 11 defaultHash).insertMany ["a", "b"]).owner? (utf8 "10a") := by
  have hinj : Set.InjOn defaultHash (labels 11 ["a", "b"].toFinset) := by decide +kernel
  have hdecide := order_free_iff_not_shadows hinj (by decide)
  have hclear := hdecide.2.2.2 (.inr (by simp))
  have hperm : ["b", "a"].Perm ["a", "b"] := List.Perm.swap _ _ _
  exact ⟨hdecide.2.1.1 hclear _ hperm, hdecide.2.2.1.1 hclear _ hperm "10a"⟩

/-- Replica 1 of `0peer` and replica 10 of `peer` have one label, hence one position, under every
hash. A position is lost, and the key of that label belongs to the one placed last. A hash that
tells all other labels apart does not help. -/
theorem zero_peer_overwrites : ∃ first second : List String,
    first.Nodup ∧ first.Perm second ∧
    Set.InjOn defaultHash (labels 11 first.toFinset) ∧
    ∀ hash : Hash, ((empty 11 hash).insertMany first).size ≠ 11 * first.length ∧
      ∃ key : String, ((empty 11 hash).insertMany first).owner? (utf8 key) ≠
        ((empty 11 hash).insertMany second).owner? (utf8 key) := by
  have hpeer : utf8 "10peer" = replicaLabel 10 "peer" := utf8_inj.2 (by decide)
  have hzero : utf8 "10peer" = replicaLabel 1 "0peer" := utf8_inj.2 (by decide)
  refine ⟨["peer", "0peer"], ["0peer", "peer"], by decide, List.Perm.swap _ _ _,
    by decide +kernel, fun hash ↦ ⟨?_, "10peer", ?_⟩⟩
  · have hcard : (Finset.range 11 ×ˢ ["peer", "0peer"].toFinset).card = 11 * 2 := by decide
    rw [size_insertMany_empty, List.length_cons, List.length_singleton, ← hcard, Ne,
      Finset.card_image_iff]
    intro hinj
    have hsame := @hinj (10, "peer") (by simp) (1, "0peer") (by simp)
      (congrArg hash (hpeer.symm.trans hzero))
    exact absurd hsame (by decide)
  · have hlast : ((empty 11 hash).insertMany ["peer", "0peer"]).owner? (utf8 "10peer") =
        some "0peer" :=
      owner?_insert (ordered_insertMany (ordered_empty 11 hash) ["peer"])
        ⟨1, by simp [empty], congrArg _ hzero⟩
    have hother : ((empty 11 hash).insertMany ["0peer", "peer"]).owner? (utf8 "10peer") =
        some "peer" :=
      owner?_insert (ordered_insertMany (ordered_empty 11 hash) ["0peer"])
        ⟨10, by simp [empty], congrArg _ hpeer⟩
    rw [hlast, hother]
    decide

end Ring

end ReadThrough
