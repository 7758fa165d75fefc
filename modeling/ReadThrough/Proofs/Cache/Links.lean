import Mathlib.Data.List.Chain
import Mathlib.Data.List.Nodup
import ReadThrough.Cache.Recency
import ReadThrough.Cache.Slab

/-!
# The links between slots

The slab itself closes the list of its slots into a ring: its oldest slot is the one newer than the
slab, and its newest slot the one older than it. `Threaded` says that the ring runs through certain
slots in a certain order, each neighbour pointing back. Taking a slot off the list and putting one
at its new end are changes of that ring at one place, and change nothing but links (`Relinked`).
-/

namespace ReadThrough

/-- The entry that a slot holds. -/
def Slot.entry (slot : Slot) : Entry :=
  ⟨slot.key, slot.value⟩

namespace Slab

/-- A slot, and a vacant one where there is none of that number. -/
def slotAt (slab : Slab) (number : Nat) : Slot :=
  slab.slots[number]?.getD vacant

/-- What comes next on the newer side of a slot, or of the slab itself. -/
def newerOf (slab : Slab) : Option Nat → Option Nat
  | none => slab.oldest
  | some number => (slab.slotAt number).newer

/-- What comes next on the older side of a slot, or of the slab itself. -/
def olderOf (slab : Slab) : Option Nat → Option Nat
  | none => slab.newest
  | some number => (slab.slotAt number).older

/-- Two neighbours point at each other. -/
def Linked (slab : Slab) (first second : Option Nat) : Prop :=
  slab.newerOf first = second ∧ slab.olderOf second = first

/-- The ring runs from the slab through these slots, the least recently used one first. -/
def Threaded (slab : Slab) (order : List Nat) : Prop :=
  List.IsChain slab.Linked (none :: (order.map some ++ [none]))

/-- Following one kind of links from a start meets these slots, one after the other, and ends. -/
def Follows (slab : Slab) (link : Slot → Option Nat) : Option Nat → List Nat → Prop
  | start, [] => start = none
  | start, number :: rest =>
      start = some number ∧
        ∃ slot, slab.slots[number]? = some slot ∧ slab.Follows link (link slot) rest

/-- A slab that differs from another one at most in its links. -/
structure Relinked (after slab : Slab) : Prop where
  budget : after.budget = slab.budget
  bytes : after.bytes = slab.bytes
  index : after.index = slab.index
  free : after.free = slab.free
  evictions : after.evictions = slab.evictions
  slots : after.slots.size = slab.slots.size
  entry : ∀ number, (after.slotAt number).entry = (slab.slotAt number).entry
  charge : ∀ number, (after.slotAt number).size = (slab.slotAt number).size

variable {slab : Slab} {number other : Nat}

/-! ## Slots and links -/

theorem getElem?_slots (h : number < slab.slots.size) :
    slab.slots[number]? = some (slab.slotAt number) := by
  simp [slotAt, h]

theorem slotAt_modifySlot (h : number < slab.slots.size) (change : Slot → Slot) (other : Nat) :
    (slab.modifySlot number change).slotAt other =
      if other = number then change (slab.slotAt other) else slab.slotAt other := by
  unfold slotAt modifySlot
  rw [Array.getElem?_modify]
  by_cases heq : number = other
  · subst heq
    simp [h]
  · rw [if_neg heq, if_neg (Ne.symm heq)]

namespace Relinked

theorem refl (slab : Slab) : Relinked slab slab :=
  ⟨rfl, rfl, rfl, rfl, rfl, rfl, fun _ ↦ rfl, fun _ ↦ rfl⟩

theorem trans {first second third : Slab} (h : Relinked first second)
    (h' : Relinked second third) : Relinked first third where
  budget := h.budget.trans h'.budget
  bytes := h.bytes.trans h'.bytes
  index := h.index.trans h'.index
  free := h.free.trans h'.free
  evictions := h.evictions.trans h'.evictions
  slots := h.slots.trans h'.slots
  entry := fun number ↦ (h.entry number).trans (h'.entry number)
  charge := fun number ↦ (h.charge number).trans (h'.charge number)

/-- Changing the links of one slot changes nothing but links. -/
theorem modifySlot (slab : Slab) (number : Nat) (change : Slot → Slot)
    (hentry : ∀ slot, (change slot).entry = slot.entry)
    (hcharge : ∀ slot, (change slot).size = slot.size) :
    Relinked (slab.modifySlot number change) slab := by
  refine ⟨rfl, rfl, rfl, rfl, rfl, Array.size_modify, ?_, ?_⟩
  all_goals
    intro other
    by_cases h : number < slab.slots.size
    · rw [slotAt_modifySlot h]
      split
      · first | exact hentry _ | exact hcharge _
      · rfl
    · -- there is no such slot to change
      unfold slotAt Slab.modifySlot
      rw [Array.getElem?_modify]
      split
      · next heq =>
        subst heq
        simp [h]
      · rfl

theorem linkNewer (slab : Slab) (before next : Option Nat) :
    Relinked (slab.linkNewer before next) slab := by
  cases before with
  | none => exact ⟨rfl, rfl, rfl, rfl, rfl, rfl, fun _ ↦ rfl, fun _ ↦ rfl⟩
  | some number => exact modifySlot slab number _ (fun _ ↦ rfl) fun _ ↦ rfl

theorem linkOlder (slab : Slab) (after previous : Option Nat) :
    Relinked (slab.linkOlder after previous) slab := by
  cases after with
  | none => exact ⟨rfl, rfl, rfl, rfl, rfl, rfl, fun _ ↦ rfl, fun _ ↦ rfl⟩
  | some number => exact modifySlot slab number _ (fun _ ↦ rfl) fun _ ↦ rfl

theorem unlink (slab : Slab) (number : Nat) : Relinked (slab.unlink number) slab := by
  unfold Slab.unlink
  split
  · exact refl slab
  · next slot hslot =>
    have hnewer := linkNewer slab slot.older slot.newer
    have holder := linkOlder (slab.linkNewer slot.older slot.newer) slot.newer slot.older
    refine .trans ?_ (holder.trans hnewer)
    exact modifySlot _ number _ (fun _ ↦ rfl) fun _ ↦ rfl

theorem linkNewest (slab : Slab) (number : Nat) : Relinked (slab.linkNewest number) slab := by
  have h := (linkNewer (slab.modifySlot number fun s ↦
    { s with older := slab.newest, newer := none }) slab.newest (some number)).trans
    (modifySlot slab number _ (fun _ ↦ rfl) fun _ ↦ rfl)
  exact ⟨h.budget, h.bytes, h.index, h.free, h.evictions, h.slots, h.entry, h.charge⟩

end Relinked

/-- Setting a link to the newer side changes that link alone. -/
theorem links_linkNewer {before : Option Nat} (h : ∀ number ∈ before, number < slab.slots.size)
    (next link : Option Nat) :
    ((slab.linkNewer before next).newerOf link =
      if link = before then next else slab.newerOf link) ∧
      (slab.linkNewer before next).olderOf link = slab.olderOf link := by
  cases before with
  | none => cases link <;> exact ⟨rfl, rfl⟩
  | some number =>
      cases link with
      | none => exact ⟨rfl, rfl⟩
      | some other =>
          simp only [linkNewer, newerOf, olderOf, slotAt_modifySlot (h number rfl),
            Option.some.injEq]
          split <;> exact ⟨rfl, rfl⟩

/-- Setting a link to the older side changes that link alone. -/
theorem links_linkOlder {after : Option Nat} (h : ∀ number ∈ after, number < slab.slots.size)
    (previous link : Option Nat) :
    ((slab.linkOlder after previous).olderOf link =
      if link = after then previous else slab.olderOf link) ∧
      (slab.linkOlder after previous).newerOf link = slab.newerOf link := by
  cases after with
  | none => cases link <;> exact ⟨rfl, rfl⟩
  | some number =>
      cases link with
      | none => exact ⟨rfl, rfl⟩
      | some other =>
          simp only [linkOlder, newerOf, olderOf, slotAt_modifySlot (h number rfl),
            Option.some.injEq]
          split <;> exact ⟨rfl, rfl⟩

/-! ## Changes of the ring -/

/-- The links of a slot that is taken off the list join its neighbours. -/
theorem links_unlink (hlt : number < slab.slots.size)
    (hbefore : ∀ other ∈ slab.olderOf (some number), other < slab.slots.size)
    (hafter : ∀ other ∈ slab.newerOf (some number), other < slab.slots.size)
    (link : Option Nat) (hne : link ≠ some number) :
    ((slab.unlink number).newerOf link =
      if link = slab.olderOf (some number) then slab.newerOf (some number)
      else slab.newerOf link) ∧
    (slab.unlink number).olderOf link =
      if link = slab.newerOf (some number) then slab.olderOf (some number)
      else slab.olderOf link := by
  let joined := (slab.linkNewer (slab.olderOf (some number)) (slab.newerOf (some number))).linkOlder
    (slab.newerOf (some number)) (slab.olderOf (some number))
  have hsize : (slab.linkNewer (slab.olderOf (some number))
      (slab.newerOf (some number))).slots.size = slab.slots.size :=
    (Relinked.linkNewer _ _ _).slots
  have hsize' : joined.slots.size = slab.slots.size := (Relinked.linkOlder _ _ _).slots.trans hsize
  have hunlink : slab.unlink number =
      joined.modifySlot number fun s ↦ { s with older := none, newer := none } := by
    unfold unlink
    rw [getElem?_slots hlt]
    rfl
  have hjoined : joined.newerOf link =
      (if link = slab.olderOf (some number) then slab.newerOf (some number)
        else slab.newerOf link) ∧
      joined.olderOf link =
        if link = slab.newerOf (some number) then slab.olderOf (some number)
        else slab.olderOf link := by
    have hnewer := links_linkNewer hbefore (slab.newerOf (some number)) link
    have holder := links_linkOlder (hsize ▸ hafter) (slab.olderOf (some number)) link
    exact ⟨holder.2.trans hnewer.1, by rw [holder.1, hnewer.2]⟩
  rw [hunlink]
  cases link with
  | none => exact hjoined
  | some other =>
      have hother : other ≠ number := fun heq ↦ hne (congrArg some heq)
      simp only [newerOf, olderOf, slotAt_modifySlot (hsize' ▸ hlt), if_neg hother]
      exact hjoined

/-- The links of a slot that is put at the new end of the list. -/
theorem links_linkNewest (hlt : number < slab.slots.size)
    (hlast : ∀ other ∈ slab.newest, other < slab.slots.size) :
    (∀ link, (slab.linkNewest number).newerOf link =
      if link = slab.newest then some number
      else if link = some number then none else slab.newerOf link) ∧
    ∀ link, (slab.linkNewest number).olderOf link =
      if link = none then some number
      else if link = some number then slab.newest else slab.olderOf link := by
  let ended := slab.modifySlot number fun s ↦ { s with older := slab.newest, newer := none }
  have hsize : ended.slots.size = slab.slots.size := Array.size_modify
  have hended : ∀ link, ended.newerOf link =
      (if link = some number then none else slab.newerOf link) ∧
      ended.olderOf link = if link = some number then slab.newest else slab.olderOf link := by
    intro link
    cases link with
    | none => exact ⟨rfl, rfl⟩
    | some other =>
        simp only [ended, newerOf, olderOf, slotAt_modifySlot hlt, Option.some.injEq]
        split <;> exact ⟨rfl, rfl⟩
  have hbound : ∀ other ∈ slab.newest, other < ended.slots.size := hsize ▸ hlast
  have hlinked := links_linkNewer hbound (some number)
  constructor
  · intro link
    have hnewer : (slab.linkNewest number).newerOf link =
        (ended.linkNewer slab.newest (some number)).newerOf link := by
      cases link <;> rfl
    rw [hnewer, (hlinked link).1, (hended link).1]
  · intro link
    cases link with
    | none => rfl
    | some other =>
        rw [if_neg nofun, ← (hended _).2]
        exact (hlinked (some other)).2

/-! ## The thread through the slots -/

namespace Threaded

variable {order : List Nat}

theorem empty (budget : Nat) : Threaded (empty budget) [] := by
  simp [Threaded, Linked, newerOf, olderOf, Slab.empty]

/-- Only the links of the slots on the list, and those of the slab itself, matter. -/
theorem congr {after : Slab} (h : slab.Threaded order)
    (hlinks : ∀ link, link = none ∨ (∃ number ∈ order, link = some number) →
      after.newerOf link = slab.newerOf link ∧ after.olderOf link = slab.olderOf link) :
    after.Threaded order := by
  refine h.imp_of_mem_imp fun first second hfirst hsecond hlinked ↦ ?_
  have hmem : ∀ {link : Option Nat}, link ∈ none :: (order.map some ++ [none]) →
      link = none ∨ ∃ number ∈ order, link = some number := by
    intro link hlink
    simp only [List.mem_cons, List.mem_append, List.mem_map, List.not_mem_nil, or_false] at hlink
    rcases hlink with rfl | ⟨number, hnumber, rfl⟩ | rfl
    · exact .inl rfl
    · exact .inr ⟨number, hnumber, rfl⟩
    · exact .inl rfl
  exact ⟨(hlinks first (hmem hfirst)).1.trans hlinked.1,
    (hlinks second (hmem hsecond)).2.trans hlinked.2⟩

/-- What comes before the slots on the list and what they end with. -/
theorem getLast?_front (order : List Nat) :
    (none :: order.map some).getLast? = some order.getLast? := by
  rw [List.getLast?_cons, List.getLast?_map]
  cases order.getLast? <;> rfl

theorem head?_back (order : List Nat) :
    (order.map some ++ [none]).head? = some order.head? := by
  cases order <;> rfl

/-- A slot on the list and its neighbours point at each other. -/
theorem neighbours {before after : List Nat} (h : slab.Threaded (before ++ number :: after)) :
    slab.Linked before.getLast? (some number) ∧ slab.Linked (some number) after.head? := by
  have hsplit : none :: ((before ++ number :: after).map some ++ [none]) =
      (none :: before.map some) ++ some number :: (after.map some ++ [none]) := by simp
  rw [Threaded, hsplit, List.isChain_append] at h
  obtain ⟨-, hnext, hlast⟩ := h
  exact ⟨hlast _ (getLast?_front before) _ rfl,
    (List.isChain_cons.1 hnext).1 _ (head?_back after)⟩

/-- The slab and the ends of the list point at each other. -/
theorem ends (h : slab.Threaded order) :
    slab.Linked none order.head? ∧ slab.Linked order.getLast? none := by
  have hfront := List.isChain_cons.1 h
  rw [Threaded, ← List.cons_append, List.isChain_append] at h
  exact ⟨hfront.1 _ (head?_back order), h.2.2 _ (getLast?_front order) _ rfl⟩

/-- Taking a slot off the list leaves the others in their order. -/
theorem unlink (h : slab.Threaded order) (hnodup : order.Nodup)
    (hbound : ∀ number ∈ order, number < slab.slots.size) (hmem : number ∈ order) :
    (slab.unlink number).Threaded (order.erase number) := by
  obtain ⟨before, after, rfl⟩ := List.append_of_mem hmem
  obtain ⟨holder, hnewer⟩ := h.neighbours
  have hapart := List.nodup_middle.1 hnodup
  rw [List.nodup_cons, List.mem_append, not_or] at hapart
  obtain ⟨⟨hbefore, hafter⟩, -⟩ := hapart
  -- two links between other slots stay as they are, and the neighbours are joined
  have hlinks := links_unlink (hbound number hmem)
    (fun other hother ↦ hbound other <| by
      rw [holder.2] at hother
      exact List.mem_append_left _ (List.mem_of_getLast? hother))
    (fun other hother ↦ hbound other <| by
      rw [hnewer.1] at hother
      exact List.mem_append_right _ (List.mem_cons_of_mem _ (List.mem_of_head? hother)))
  have hkept : ∀ first second, first ≠ some number → second ≠ some number →
      slab.Linked first second → (slab.unlink number).Linked first second := by
    rintro first second hfirst hsecond ⟨hnext, hprevious⟩
    constructor
    · rw [(hlinks first hfirst).1, if_neg, hnext]
      rintro rfl
      exact hsecond (hnext.symm.trans (holder.2.symm ▸ holder.1))
    · rw [(hlinks second hsecond).2, if_neg, hprevious]
      rintro rfl
      exact hfirst (hprevious.symm.trans (hnewer.1.symm ▸ hnewer.2))
  have herase : (before ++ number :: after).erase number = before ++ after := by
    rw [List.erase_append_right _ hbefore, List.erase_cons_head]
  have hsplit : none :: ((before ++ number :: after).map some ++ [none]) =
      (none :: before.map some) ++ some number :: (after.map some ++ [none]) := by simp
  have hjoined : none :: ((before ++ after).map some ++ [none]) =
      (none :: before.map some) ++ (after.map some ++ [none]) := by simp
  rw [Threaded, hsplit, List.isChain_append] at h
  obtain ⟨hfront, hback, -⟩ := h
  rw [herase, Threaded, hjoined, List.isChain_append]
  refine ⟨?_, ?_, ?_⟩
  · refine hfront.imp_of_mem_imp fun first second hfirst hsecond ↦ hkept first second ?_ ?_
    · rintro rfl
      exact hbefore (by simpa using hfirst)
    · rintro rfl
      exact hbefore (by simpa using hsecond)
  · refine (List.isChain_cons.1 hback).2.imp_of_mem_imp fun first second hfirst hsecond ↦
      hkept first second ?_ ?_
    · rintro rfl
      exact hafter (by simpa using hfirst)
    · rintro rfl
      exact hafter (by simpa using hsecond)
  · intro first hfirst second hsecond
    obtain rfl : first = before.getLast? :=
      Option.some.inj (hfirst.symm.trans (getLast?_front before))
    obtain rfl : second = after.head? := Option.some.inj (hsecond.symm.trans (head?_back after))
    have hlast : before.getLast? ≠ some number := fun heq ↦ hbefore (List.mem_of_getLast? heq)
    have hhead : after.head? ≠ some number := fun heq ↦ hafter (List.mem_of_head? heq)
    constructor
    · rw [(hlinks _ hlast).1, holder.2, if_pos rfl, hnewer.1]
    · rw [(hlinks _ hhead).2, hnewer.1, if_pos rfl, holder.2]

/-- A slot that is put at the new end of the list comes last. -/
theorem linkNewest (h : slab.Threaded order) (hbound : ∀ number ∈ order, number < slab.slots.size)
    (hlt : number < slab.slots.size) (hnew : number ∉ order) :
    (slab.linkNewest number).Threaded (order ++ [number]) := by
  obtain ⟨hlastNewer, hlastOlder⟩ := h.ends.2
  have hnewest : slab.newest = order.getLast? := hlastOlder
  have hlast : ∀ other ∈ slab.newest, other < slab.slots.size := by
    intro other hother
    rw [hnewest] at hother
    exact hbound other (List.mem_of_getLast? hother)
  obtain ⟨hnewer, holder⟩ := links_linkNewest hlt hlast
  -- what was linked stays linked, only the slab has another neighbour on its older side
  have hkept : ∀ first second, first ≠ some number → second ≠ some number → second ≠ none →
      slab.Linked first second → (slab.linkNewest number).Linked first second := by
    rintro first second hfirst hsecond hsome ⟨hnext, hprevious⟩
    constructor
    · rw [hnewer, if_neg, if_neg hfirst, hnext]
      rintro rfl
      exact hsome (hnext.symm.trans (hnewest.symm ▸ hlastNewer))
    · rw [holder, if_neg hsome, if_neg hsecond, hprevious]
  have hsplit : none :: ((order ++ [number]).map some ++ [none]) =
      (none :: order.map some) ++ [some number, none] := by simp
  rw [Threaded, hsplit, List.isChain_append]
  rw [Threaded, ← List.cons_append, List.isChain_append] at h
  refine ⟨?_, ?_, ?_⟩
  · rw [List.isChain_cons] at h ⊢
    obtain ⟨⟨hfirst, hrest⟩, -⟩ := h
    have hother : ∀ {link}, link ∈ order.map some → link ≠ some number ∧ link ≠ none := by
      intro link hlink
      obtain ⟨other, hother, rfl⟩ := List.mem_map.1 hlink
      exact ⟨fun heq ↦ hnew (Option.some.inj heq ▸ hother), nofun⟩
    constructor
    · intro second hsecond
      obtain ⟨hne, hsome⟩ := hother (List.mem_of_head? hsecond)
      exact hkept none second nofun hne hsome (hfirst second hsecond)
    · refine hrest.imp_of_mem_imp fun first second hmem hmem' ↦ ?_
      exact hkept first second (hother hmem).1 (hother hmem').1 (hother hmem').2
  · rw [List.isChain_pair]
    constructor
    · rw [hnewer, if_neg, if_pos rfl]
      rw [hnewest]
      exact fun heq ↦ hnew (List.mem_of_getLast? heq.symm)
    · rw [holder, if_pos rfl]
  · intro first hfirst second hsecond
    have hlast : first = order.getLast? :=
      Option.some.inj (hfirst.symm.trans (getLast?_front order))
    obtain rfl : some number = second := Option.some.inj hsecond
    constructor
    · rw [hnewer, if_pos (hlast.trans hnewest.symm)]
    · rw [holder, if_neg nofun, if_pos rfl, hnewest, hlast]

/-! ## Walks along the links -/

/-- Where each link of a chain is the next one of some kind, following links of that kind meets the
slots of the chain. -/
theorem follows_of_isChain {next : Option Nat → Option Nat} {link : Slot → Option Nat}
    (hlink : ∀ number, next (some number) = link (slab.slotAt number))
    (hbound : ∀ number ∈ order, number < slab.slots.size) {start : Option Nat}
    (h : List.IsChain (fun first second ↦ next first = second)
      (start :: (order.map some ++ [none]))) : slab.Follows link (next start) order := by
  induction order generalizing start with
  | nil => simpa [Follows] using h
  | cons number rest ih =>
      rw [List.map_cons, List.cons_append, List.isChain_cons_cons] at h
      refine ⟨h.1, slab.slotAt number, getElem?_slots (hbound number List.mem_cons_self), ?_⟩
      rw [← hlink]
      exact ih (fun other hother ↦ hbound other (List.mem_cons_of_mem _ hother)) h.2

/-- Following the newer links from the oldest slot meets every slot on the list. -/
theorem forward (h : slab.Threaded order) (hbound : ∀ number ∈ order, number < slab.slots.size) :
    slab.Follows Slot.newer slab.oldest order :=
  follows_of_isChain (fun _ ↦ rfl) hbound (h.imp fun _ _ hlinked ↦ hlinked.1)

/-- Following the older links from the newest slot meets them in the opposite order. -/
theorem backward (h : slab.Threaded order) (hbound : ∀ number ∈ order, number < slab.slots.size) :
    slab.Follows Slot.older slab.newest order.reverse := by
  show slab.Follows Slot.older (slab.olderOf none) order.reverse
  refine follows_of_isChain (fun _ ↦ rfl) ?_ ?_
  · exact fun number hmem ↦ hbound number (List.mem_reverse.1 hmem)
  · have hreverse : none :: (order.reverse.map some ++ [none]) =
        (none :: (order.map some ++ [none])).reverse := by simp
    rw [hreverse, List.isChain_reverse]
    exact h.imp fun _ _ hlinked ↦ hlinked.2

end Threaded

end Slab

end ReadThrough
