import Mathlib.Data.List.Nodup
import ReadThrough.Proofs.Cluster.Transitions
import ReadThrough.Proofs.Group.Agreement

/-!
# Who leads

A flight is led from the moment its key is put on record to the moment the record is taken away, by
one frame. `Led` says so for every frame of every task at once: the key of a leader is on record,
and no two frames lead for the same key of the same group. It is kept by every move, and
`Led.unique` draws the conclusion that there is one leader for each key.
-/

namespace ReadThrough

/-- The group and the key that a frame leads a flight for. -/
def Frame.lead? (frame : Frame) : Option (Nat × String) :=
  match frame.stage with
  | .leading _ _ => some (frame.group, frame.key)
  | _ => none

/-- What the frames of a task lead flights for. -/
def leads (frames : List Frame) : List (Nat × String) :=
  frames.filterMap Frame.lead?

/-- A frame at a stage leads for its own group and key or not at all. -/
theorem Frame.lead?_leading {frame : Frame} {flight : Nat} {errand : Errand}
    (hstage : frame.stage = .leading flight errand) :
    frame.lead? = some (frame.group, frame.key) := by
  rw [lead?, hstage]

namespace Cluster

/-- A group has a flight for a key on record. -/
def Recorded (c : Cluster) (led : Nat × String) : Prop :=
  ∃ group flight, c.groups[led.1]? = some group ∧ (led.2, flight) ∈ group.flights.records

/-- Every leader is on record, and leads alone. -/
structure Led (c : Cluster) : Prop where
  recorded : ∀ (number : Nat) (task : Task), c.tasks[number]? = some task →
    ∀ led ∈ leads task.frames, c.Recorded led
  within : ∀ (number : Nat) (task : Task), c.tasks[number]? = some task →
    (leads task.frames).Nodup
  across : ∀ (number other : Nat) (task found : Task), c.tasks[number]? = some task →
    c.tasks[other]? = some found → number ≠ other →
    ∀ led ∈ leads task.frames, led ∉ leads found.frames

variable {c following : Cluster} {number : Nat} {task : Task}

/-- There is one leader for each key of each group. -/
theorem Led.unique (h : Led c) {other depth below : Nat} {found : Task} {frame leader : Frame}
    {led : Nat × String} (htask : c.tasks[number]? = some task)
    (hframe : task.frames[depth]? = some frame) (hleads : frame.lead? = some led)
    (hfound : c.tasks[other]? = some found) (hleader : found.frames[below]? = some leader)
    (hleads' : leader.lead? = some led) : number = other ∧ depth = below := by
  have hmem : ∀ {frames : List Frame} {depth : Nat} {frame : Frame},
      frames[depth]? = some frame → frame.lead? = some led → led ∈ leads frames :=
    fun hframe hleads ↦ List.mem_filterMap.2 ⟨_, List.mem_of_getElem? hframe, hleads⟩
  obtain rfl : number = other := by
    by_contra hne
    exact h.across number other task found htask hfound hne led (hmem hframe hleads)
      (hmem hleader hleads')
  rw [htask] at hfound
  cases hfound
  refine ⟨rfl, ?_⟩
  have hpairwise := List.pairwise_filterMap.1 (h.within number task htask)
  have hapart : ∀ {i j : Nat} {first second : Frame}, i < j → task.frames[i]? = some first →
      task.frames[j]? = some second → first.lead? = some led → second.lead? ≠ some led := by
    intro i j first second hlt hfirst hsecond hlead hlead'
    obtain ⟨hi, rfl⟩ := List.getElem?_eq_some_iff.1 hfirst
    obtain ⟨hj, rfl⟩ := List.getElem?_eq_some_iff.1 hsecond
    exact List.pairwise_iff_getElem.1 hpairwise i j hi hj hlt led hlead led hlead' rfl
  rcases Nat.lt_trichotomy depth below with hlt | heq | hgt
  · exact absurd hleads' (hapart hlt hframe hleader hleads)
  · exact heq
  · exact absurd hleads (hapart hgt hleader hframe hleads')

/-- Frames of one task, or of two, that lead for the same key of the same group are the same. -/
theorem Led.eq (h : Led c) {other : Nat} {found : Task} {frame leader : Frame}
    (htask : c.tasks[number]? = some task) (hframe : frame ∈ task.frames)
    (hfound : c.tasks[other]? = some found) (hleader : leader ∈ found.frames)
    {led : Nat × String} (hleads : frame.lead? = some led) (hleads' : leader.lead? = some led) :
    frame = leader := by
  obtain ⟨depth, hdepth⟩ := List.getElem?_of_mem hframe
  obtain ⟨below, hbelow⟩ := List.getElem?_of_mem hleader
  obtain ⟨rfl, rfl⟩ := h.unique htask hdepth hleads hfound hbelow hleads'
  rw [htask] at hfound
  cases hfound
  exact Option.some.inj (hdepth.symm.trans hbelow)

/-- The group of a leader is there. -/
theorem Led.exists_group (h : Led c) (htask : c.tasks[number]? = some task) {frame : Frame}
    (hframe : frame ∈ task.frames) {flight : Nat} {errand : Errand}
    (hstage : frame.stage = .leading flight errand) :
    ∃ group, c.groups[frame.group]? = some group := by
  obtain ⟨group, -, hgroup, -⟩ := h.recorded number task htask _
    (List.mem_filterMap.2 ⟨frame, hframe, Frame.lead?_leading hstage⟩)
  exact ⟨group, hgroup⟩

/-- A cluster without tasks is led. -/
theorem led_empty : Led empty :=
  ⟨by simp [empty], by simp [empty], by simp [empty]⟩

/-! ## One step -/

/-- Leaders stay so if each of them led before, or is the only new one and has a key that was not
on record. -/
theorem Led.step (h : Led c) (mover : Nat)
    (hnodup : ∀ (number : Nat) (task : Task), following.tasks[number]? = some task →
      (leads task.frames).Nodup)
    (hleads : ∀ (number : Nat) (task : Task), following.tasks[number]? = some task →
      ∀ led ∈ leads task.frames, following.Recorded led ∧
        ((∃ before, c.tasks[number]? = some before ∧ led ∈ leads before.frames) ∨
          ¬c.Recorded led ∧ number = mover)) : Led following where
  recorded := fun number task htask led hled ↦ (hleads number task htask led hled).1
  within := hnodup
  across := by
    intro number other task found htask hfound hne led hled hled'
    rcases (hleads number task htask led hled).2 with ⟨before, hbefore, hold⟩ | ⟨hfree, hmover⟩
    · rcases (hleads other found hfound led hled').2 with ⟨before', hbefore', hold'⟩ | ⟨hfree, -⟩
      · exact h.across number other before before' hbefore hbefore' hne led hold hold'
      · exact hfree (h.recorded number before hbefore led hold)
    · rcases (hleads other found hfound led hled').2 with ⟨before', hbefore', hold'⟩ | ⟨-, hmover'⟩
      · exact hfree (h.recorded other before' hbefore' led hold')
      · exact hne (hmover.trans hmover'.symm)

/-- Leaders stay so if the tasks lead what they led, or are new and lead nothing, and no record is
taken away. -/
theorem Led.around (h : Led c)
    (htasks : ∀ (number : Nat) (task : Task), following.tasks[number]? = some task →
      leads task.frames = [] ∨
        ∃ before, c.tasks[number]? = some before ∧ leads task.frames = leads before.frames)
    (hrecorded : ∀ led, c.Recorded led → following.Recorded led) : Led following := by
  refine h.step 0 ?_ ?_
  · intro number task htask
    rcases htasks number task htask with hnone | ⟨before, hbefore, heq⟩
    · exact hnone ▸ List.nodup_nil
    · exact heq ▸ h.within number before hbefore
  · intro number task htask led hled
    rcases htasks number task htask with hnone | ⟨before, hbefore, heq⟩
    · rw [hnone] at hled
      cases hled
    · rw [heq] at hled
      exact ⟨hrecorded led (h.recorded number before hbefore led hled),
        .inl ⟨before, hbefore, hled⟩⟩

/-- Leaders stay so if one task changes: what it leads now it led before, or was not on record, and
is on record now; and the records of what it did not lead stay. -/
theorem Led.retask (h : Led c) {change : Task → Task} (htask : c.tasks[number]? = some task)
    (hretasks : c.Retasks number following change) (hnodup : (leads (change task).frames).Nodup)
    (hleads : ∀ led ∈ leads (change task).frames, following.Recorded led ∧
      (led ∈ leads task.frames ∨ ¬c.Recorded led))
    (hrecorded : ∀ led, c.Recorded led → led ∉ leads task.frames → following.Recorded led) :
    Led following := by
  refine h.step number ?_ ?_
  · intro other found hfound
    rcases hretasks.cases hfound with hold | ⟨rfl, before, hbefore, rfl⟩
    · exact h.within other found hold
    · rw [htask] at hbefore
      cases hbefore
      exact hnodup
  · intro other found hfound led hled
    by_cases heq : number = other
    · subst heq
      rw [hretasks.getElem? htask] at hfound
      cases hfound
      refine ⟨(hleads led hled).1, ?_⟩
      exact (hleads led hled).2.imp (fun hold ↦ ⟨task, htask, hold⟩) fun hfree ↦ ⟨hfree, rfl⟩
    · rw [hretasks.getElem?_ne heq] at hfound
      have hother := h.across other number found task hfound htask (Ne.symm heq) led hled
      exact ⟨hrecorded led (h.recorded other found hfound led hled) hother,
        .inl ⟨found, hfound, hled⟩⟩

/-- Leaders stay so if one task leads less than before, and records are only taken away of what it
led and leads no longer. -/
theorem Led.sublist (h : Led c) {change : Task → Task} (htask : c.tasks[number]? = some task)
    (hretasks : c.Retasks number following change)
    (hsublist : (leads (change task).frames).Sublist (leads task.frames))
    (hrecorded : ∀ led, c.Recorded led →
      following.Recorded led ∨ led ∈ leads task.frames ∧ led ∉ leads (change task).frames) :
    Led following := by
  refine h.retask htask hretasks ((h.within number task htask).sublist hsublist) ?_ ?_
  · intro led hled
    have hold := hsublist.subset hled
    exact ⟨(hrecorded led (h.recorded number task htask led hold)).resolve_right
      fun hlost ↦ hlost.2 hled, .inl hold⟩
  · exact fun led hold hnot ↦ (hrecorded led hold).resolve_right fun hlost ↦ hnot hlost.1

/-! ## Records -/

theorem recorded_of_eq (hgroups : following.groups = c.groups) {led : Nat × String}
    (h : c.Recorded led) : following.Recorded led := by
  unfold Recorded
  rw [hgroups]
  exact h

/-- A record stays if the group that is put back has it. -/
theorem recorded_setGroup {index : Nat} {group after : Group}
    (hgroup : c.groups[index]? = some group)
    (hgroups : following.groups = c.groups.setIfInBounds index after) {led : Nat × String}
    (hkept : led.1 = index → (∃ flight, (led.2, flight) ∈ group.flights.records) →
      ∃ flight, (led.2, flight) ∈ after.flights.records)
    (h : c.Recorded led) : following.Recorded led := by
  obtain ⟨found, flight, hfound, hmem⟩ := h
  unfold Recorded
  rw [hgroups, Array.getElem?_setIfInBounds]
  by_cases heq : index = led.1
  · rw [← heq, hgroup] at hfound
    cases hfound
    obtain ⟨flight', hmem'⟩ := hkept heq.symm ⟨flight, hmem⟩
    exact ⟨after, flight', by rw [if_pos heq, if_pos (Array.getElem?_eq_some_iff.1 hgroup).1],
      hmem'⟩
  · exact ⟨found, flight, by rw [if_neg heq, hfound], hmem⟩

/-- Abandoning frames takes away the records of what they led. -/
theorem recorded_abandon (c : Cluster) (frames : List Frame) {led : Nat × String}
    (h : c.Recorded led) : (c.abandon frames).Recorded led ∨ led ∈ leads frames := by
  refine abandon_induction (P := fun left ↦ left.Recorded led ∨ led ∈ leads frames) (.inl h) ?_
  intro left frame flight errand group hleft hmem hstage hgroup
  refine hleft.elim (fun hrecorded ↦ ?_) .inr
  by_cases heq : led = (frame.group, frame.key)
  · exact .inr (List.mem_filterMap.2 ⟨frame, hmem, heq ▸ Frame.lead?_leading hstage⟩)
  · refine .inl (recorded_setGroup hgroup rfl ?_ hrecorded)
    rintro hindex ⟨number, hrecord⟩
    exact ⟨number, FlightTable.mem_records_erase.2 ⟨hrecord, fun hkey ↦ heq (Prod.ext hindex hkey)⟩⟩

/-! ## Moves -/

/-- What a turn does to who leads: nothing, or the frame begins to lead for a key that was not on
record, or it lands its flight. -/
theorem Turn.leads {frame : Frame} {group after : Group} {action : Action} {stage : FrameStage}
    (turn : Turn c number task frame group action stage after) :
    (({ frame with stage } : Frame).lead? = frame.lead? ∧
      after.flights.records = group.flights.records) ∨
    (frame.lead? = none ∧ ({ frame with stage } : Frame).lead? = some (frame.group, frame.key) ∧
      (∀ flight, (frame.key, flight) ∉ group.flights.records) ∧
      after.flights.records = group.flights.records ++ [(frame.key, group.flights.flights.size)]) ∨
    (frame.lead? = some (frame.group, frame.key) ∧
      ({ frame with stage } : Frame).lead? = none ∧
      ∀ key flight, (key, flight) ∈ after.flights.records ↔
        (key, flight) ∈ group.flights.records ∧ key ≠ frame.key) := by
  have hcontends : Contends frame group → frame.lead? = none := by
    rintro (hstage | ⟨flight, hstage, -⟩) <;> simp [Frame.lead?, hstage]
  cases turn with
  | answered outcome after hstage hconsult =>
      have hkept := group.consult_kept frame.key c.now (frame.hearsToken && task.cancelled)
      rw [hconsult] at hkept
      exact .inl ⟨by simp [Frame.lead?, hstage], by rw [hkept.flights]⟩
  | missed after hstage hconsult =>
      have hkept := group.consult_kept frame.key c.now (frame.hearsToken && task.cancelled)
      rw [hconsult] at hkept
      exact .inl ⟨by simp [Frame.lead?, hstage], by rw [hkept.flights]⟩
  | joined flight h hmem => exact .inl ⟨(hcontends h).symm ▸ rfl, rfl⟩
  | led h hfree => exact .inr (.inl ⟨hcontends h, rfl, hfree, rfl⟩)
  | took flight outcome hstage => exact .inl ⟨by simp [Frame.lead?, hstage], rfl⟩
  | found flight value tier hstage => exact .inl ⟨by simp [Frame.lead?, hstage], rfl⟩
  | loads flight node hstage => exact .inl ⟨by simp [Frame.lead?, hstage], rfl⟩
  | fetches flight node peer hstage => exact .inl ⟨by simp [Frame.lead?, hstage], rfl⟩
  | refused flight node peer sharesToken fault hstage =>
      exact .inl ⟨by simp [Frame.lead?, hstage], by rw [(group.takeFetched_kept _ _ _).flights]⟩
  | landed flight outcome hstage =>
      exact .inr (.inr ⟨Frame.lead?_leading hstage, rfl, fun _ _ ↦
        FlightTable.mem_records_erase⟩)
  | loaded flight answer hstage =>
      exact .inl ⟨by simp [Frame.lead?, hstage], by rw [(group.takeLoaded_kept _ _ _).flights]⟩
  | fetched flight peer answer hstage =>
      exact .inl ⟨by simp [Frame.lead?, hstage], by rw [(group.takeFetched_kept _ _ _).flights]⟩

theorem leads_cons (frame : Frame) (outer : List Frame) :
    leads (frame :: outer) = frame.lead?.toList ++ leads outer := by
  unfold leads
  cases h : frame.lead? with
  | none => rw [List.filterMap_cons_none h]; rfl
  | some led => rw [List.filterMap_cons_some h]; rfl

/-- A turn keeps one leader for each key. -/
theorem Led.turn (h : Led c) (htask : c.tasks[number]? = some task) {frame : Frame}
    {outer : List Frame} (hframes : task.frames = frame :: outer) {group after : Group}
    (hgroup : c.groups[frame.group]? = some group) {action : Action} {stage : FrameStage}
    (turn : Turn c number task frame group action stage after)
    (hreframes : c.Reframes number following ({ frame with stage } :: outer))
    (hgroups : following.groups = c.groups.setIfInBounds frame.group after) : Led following := by
  have hnodup := h.within number task htask
  have hbefore : leads task.frames = frame.lead?.toList ++ leads outer := by
    rw [hframes, leads_cons]
  have hafter := leads_cons { frame with stage } outer
  rcases turn.leads with ⟨hlead, hrecords⟩ | ⟨hnone, hlead, hfree, hrecords⟩ |
    ⟨hlead, hnone, hrecords⟩
  · refine h.sublist htask hreframes ?_ fun led hled ↦ .inl ?_
    · rw [hbefore, hafter, hlead]
    · exact recorded_setGroup hgroup hgroups (fun _ hmem ↦ hrecords ▸ hmem) hled
  · -- the key was on record nowhere, so nobody leads for it
    have hunrecorded : ¬c.Recorded (frame.group, frame.key) := by
      rintro ⟨found, flight, hfound, hmem⟩
      rw [hgroup] at hfound
      cases hfound
      exact hfree flight hmem
    have hkept : ∀ led, c.Recorded led → following.Recorded led := fun led hled ↦
      recorded_setGroup hgroup hgroups
        (fun _ ⟨flight, hmem⟩ ↦ ⟨flight, hrecords ▸ List.mem_append_left _ hmem⟩) hled
    have hnew : following.Recorded (frame.group, frame.key) := by
      refine ⟨after, group.flights.flights.size, ?_, hrecords ▸ List.mem_append_right _ ?_⟩
      · rw [hgroups]
        exact Array.getElem?_setIfInBounds_self_of_lt (Array.getElem?_eq_some_iff.1 hgroup).1
      · exact List.mem_singleton_self _
    rw [hnone, Option.toList_none, List.nil_append] at hbefore
    rw [hlead, Option.toList_some, List.singleton_append] at hafter
    rw [hbefore] at hnodup
    refine h.retask htask hreframes ?_ ?_ fun led hled _ ↦ hkept led hled
    · rw [hafter, List.nodup_cons]
      refine ⟨fun hmem ↦ hunrecorded ?_, hnodup⟩
      exact h.recorded number task htask _ (hbefore ▸ hmem)
    · intro led hled
      rw [hafter, List.mem_cons] at hled
      rw [hbefore]
      rcases hled with rfl | hled
      · exact ⟨hnew, .inr hunrecorded⟩
      · exact ⟨hkept led (h.recorded number task htask led (hbefore ▸ hled)), .inl hled⟩
  · rw [hlead, Option.toList_some, List.singleton_append] at hbefore
    rw [hnone, Option.toList_none, List.nil_append] at hafter
    rw [hbefore, List.nodup_cons] at hnodup
    refine h.sublist htask hreframes ?_ fun led hled ↦ ?_
    · rw [hbefore, hafter]
      exact List.sublist_cons_self _ _
    · by_cases heq : led = (frame.group, frame.key)
      · rw [hbefore, hafter, heq]
        exact .inr ⟨List.mem_cons_self, hnodup.1⟩
      · refine .inl (recorded_setGroup hgroup hgroups ?_ hled)
        rintro hindex ⟨flight, hmem⟩
        exact ⟨flight, (hrecords _ _).2 ⟨hmem, fun hkey ↦ heq (Prod.ext hindex hkey)⟩⟩

/-- Giving frames up keeps one leader for each key, if the frames that are left lead some of what
they led. -/
theorem Led.abandon (h : Led c) (htask : c.tasks[number]? = some task) {change : Task → Task}
    (hretasks : c.Retasks number following change) (depth : Nat)
    (hleft : leads (change task).frames = leads (task.frames.drop depth))
    (hkept : ∀ led, (c.abandon (task.frames.take depth)).Recorded led →
      following.Recorded led) : Led following := by
  have hsplit : leads task.frames =
      leads (task.frames.take depth) ++ leads (task.frames.drop depth) := by
    rw [leads, leads, leads, ← List.filterMap_append, List.take_append_drop]
  have hnodup := h.within number task htask
  rw [hsplit] at hnodup
  refine h.sublist htask hretasks ?_ fun led hled ↦ ?_
  · rw [hleft, hsplit]
    exact List.sublist_append_right _ _
  · rcases recorded_abandon c (task.frames.take depth) hled with hrecorded | hlost
    · exact .inl (hkept led hrecorded)
    · rw [hsplit, hleft]
      exact .inr ⟨List.mem_append_left _ hlost, List.disjoint_of_nodup_append hnodup hlost⟩

/-- Every move keeps one leader for each key. -/
theorem Led.move (h : Led c) {action : Action} (move : Move c action following) :
    Led following := by
  have hcounted : ∀ {index : Nat} {group after : Group} {following : Cluster},
      c.groups[index]? = some group → following.groups = c.groups.setIfInBounds index after →
      after.flights = group.flights → ∀ led, c.Recorded led → following.Recorded led :=
    fun hgroup hgroups hflights led hled ↦
      recorded_setGroup hgroup hgroups (fun _ hmem ↦ hflights ▸ hmem) hled
  have hsame : ∀ {tasks : Array Task}, tasks = c.tasks →
      ∀ (number : Nat) (task : Task), tasks[number]? = some task → leads task.frames = [] ∨
        ∃ before, c.tasks[number]? = some before ∧ leads task.frames = leads before.frames :=
    fun heq number task htask ↦ .inr ⟨task, heq ▸ htask, rfl⟩
  have hpush : ∀ {new : Task}, leads new.frames = [] →
      ∀ (number : Nat) (task : Task), (c.tasks.push new)[number]? = some task →
        leads task.frames = [] ∨
        ∃ before, c.tasks[number]? = some before ∧ leads task.frames = leads before.frames := by
    intro new hnew number task htask
    rcases cases_push htask with rfl | hold
    · exact .inl hnew
    · exact .inr ⟨task, hold, rfl⟩
  cases move with
  | turned number task frame outer group _ stage after following htask hframes hgroup hturn
      hreframes hgroups => exact h.turn htask hframes hgroup hturn hreframes hgroups
  | forwarded number task frame outer group served flight home peer sharesToken node target
      following htask hframes hgroup hstage hpeek hhome hpick hcarrier hroute hserved hreframes
      hgroups =>
      refine h.sublist htask hreframes ?_ fun led hled ↦
        .inl (hcounted hserved hgroups rfl led hled)
      simp [hframes, leads_cons, Frame.lead?, hstage]
  | handed number task frame parent outer group outcome flight peer following htask hframes
      hstage hparent hgroup hreframes hgroups =>
      refine h.sublist htask hreframes ?_ fun led hled ↦
        .inl (hcounted hgroup hgroups (group.takeFetched_kept _ _ _).flights led hled)
      simp [hframes, leads_cons, Frame.lead?, hstage, hparent]
  | popped number task frame outer outcome following htask hframes hstage hreframes hgroups =>
      refine h.sublist htask hreframes ?_ fun led hled ↦ .inl (recorded_of_eq hgroups hled)
      simp [hframes, leads_cons, Frame.lead?, hstage]
  | finished number task frame outcome following htask hframes hstage hretasks hgroups =>
      refine h.sublist htask hretasks ?_ fun led hled ↦ .inl (recorded_of_eq hgroups hled)
      simp [leads]
  | heeded number depth task frame following htask hframe hcancelled hhears hawaits hreframes
      hgroups =>
      refine h.abandon htask hreframes (depth + 1) ?_ fun led hled ↦ recorded_of_eq hgroups hled
      simp [leads_cons, Frame.lead?]
  | brokeOff number depth reason task frame flight peer group following htask hframe hstage hgroup
      hreframes hgroups =>
      refine h.abandon htask hreframes (depth + 1) ?_ fun led hled ↦ ?_
      · have hdrop : task.frames.drop (depth + 1) = frame :: task.frames.drop (depth + 2) := by
          obtain ⟨hlt, rfl⟩ := List.getElem?_eq_some_iff.1 hframe
          exact List.drop_eq_getElem_cons hlt
        rw [hdrop]
        simp [leads_cons, Frame.lead?, hstage]
      · exact recorded_setGroup hgroup hgroups
          (fun _ hmem ↦ (group.takeFetched_kept _ _ _).flights ▸ hmem) hled
  | expired number task deadline following htask hpending hdeadline hdue hretasks hgroups =>
      refine h.abandon htask hretasks task.frames.length ?_ fun led hled ↦ ?_
      · simp [leads]
      · exact recorded_of_eq hgroups (by rwa [List.take_length] at hled)
  | dropped number task following htask hpending hretasks hgroups =>
      refine h.abandon htask hretasks task.frames.length ?_ fun led hled ↦ ?_
      · simp [leads]
      · exact recorded_of_eq hgroups (by rwa [List.take_length] at hled)
  | fired number =>
      refine h.around ?_ fun led hled ↦ hled
      intro other task htask
      have hretasks : c.Retasks number (c.cancel number) fun t ↦ { t with cancelled := true } :=
        ⟨rfl, rfl, rfl⟩
      rcases hretasks.cases htask with hold | ⟨rfl, before, hbefore, rfl⟩
      · exact .inr ⟨task, hold, rfl⟩
      · exact .inr ⟨before, hbefore, rfl⟩
  | asked node index key hearsToken cancelled timeout group hgroup =>
      exact h.around (hpush rfl) fun led hled ↦ hled
  | requested node method path name key index group deadline hgroup =>
      have hgroups : (c.setGroup index group.recordServerRequest).groups =
          c.groups.setIfInBounds index group.recordServerRequest := rfl
      exact h.around (hpush rfl) fun led hled ↦
        recorded_setGroup hgroup hgroups (fun _ hmem ↦ hmem) hled
  | responded node method path response => exact h.around (hpush rfl) fun led hled ↦ hled
  | removed index key group hgroup =>
      exact h.around (hsame rfl) (hcounted hgroup rfl (group.remove_kept key).flights)
  | cleared index group hgroup => exact h.around (hsame rfl) (hcounted hgroup rfl rfl)
  | added membership carrier basePath requestTimeout =>
      exact h.around (hsame rfl) fun led hled ↦ hled
  | created node name settings =>
      refine h.around (hsame rfl) ?_
      rintro led ⟨group, flight, hgroup, hmem⟩
      refine ⟨group, flight, ?_, hmem⟩
      show (c.groups.push _)[led.1]? = some group
      rw [Array.getElem?_push, if_neg (Nat.ne_of_lt (Array.getElem?_eq_some_iff.1 hgroup).1),
        hgroup]
  | rewired _ node change hchange => exact h.around (hsame rfl) fun led hled ↦ hled
  | stayed _ _ hgroups htasks hnodes =>
      exact h.around (hsame htasks) fun led hled ↦ recorded_of_eq hgroups hled

end Cluster

end ReadThrough
