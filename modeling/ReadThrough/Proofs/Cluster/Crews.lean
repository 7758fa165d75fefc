import ReadThrough.Proofs.Cluster.Events

/-!
# Flights and their leaders

A flight that is aloft has a frame that leads it: whoever gives such a frame up loses its flight
first. And a task that is pending has a frame. `Crewed` says both, and every move keeps it.
-/

namespace ReadThrough

/-- A frame leads a flight of a group. -/
def Frame.Flies (frame : Frame) (index flight : Nat) : Prop :=
  frame.group = index ∧ ∃ errand, frame.stage = .leading flight errand

namespace Cluster

/-- A flight of a group is aloft. -/
def HasAloft (c : Cluster) (index flight : Nat) : Prop :=
  ∃ group, c.groups[index]? = some group ∧ group.flights.flights[flight]? = some .aloft

/-- Every flight aloft has a leader, and every pending task has a frame. -/
structure Crewed (c : Cluster) : Prop where
  led : ∀ index flight, c.HasAloft index flight →
    ∃ number frame, c.HasFrame number frame ∧ frame.Flies index flight
  pending : ∀ (number : Nat) (task : Task), c.tasks[number]? = some task → task.pending = true →
    task.frames ≠ []

theorem crewed_empty : Crewed empty :=
  ⟨by simp [HasAloft, empty], by simp [empty]⟩

variable {c following : Cluster} {action : Action} {number index flight : Nat} {task : Task}

/-! ## Flights that stay aloft -/

/-- A flight that is aloft in a group that was put back. -/
theorem HasAloft.setGroup {other : Nat} {group after : Group}
    (h : following.HasAloft index flight) (hgroup : c.groups[other]? = some group)
    (hgroups : following.groups = c.groups.setIfInBounds other after) :
    index = other ∧ after.flights.flights[flight]? = some .aloft ∨
      index ≠ other ∧ c.HasAloft index flight := by
  obtain ⟨found, hfound, haloft⟩ := h
  rw [hgroups, Array.getElem?_setIfInBounds] at hfound
  by_cases heq : other = index
  · subst heq
    rw [if_pos rfl, if_pos (Array.getElem?_eq_some_iff.1 hgroup).1] at hfound
    cases hfound
    exact .inl ⟨rfl, haloft⟩
  · rw [if_neg heq] at hfound
    exact .inr ⟨Ne.symm heq, found, hfound, haloft⟩

/-- Where a group is put back with the flights that it had, what is aloft was so before. -/
theorem HasAloft.of_kept {other : Nat} {group after : Group}
    (h : following.HasAloft index flight) (hgroup : c.groups[other]? = some group)
    (hgroups : following.groups = c.groups.setIfInBounds other after)
    (hflights : after.flights = group.flights) : c.HasAloft index flight := by
  rcases h.setGroup hgroup hgroups with ⟨rfl, haloft⟩ | ⟨-, hold⟩
  · exact ⟨group, hgroup, hflights ▸ haloft⟩
  · exact hold

/-- Of the flights of abandoned frames none is aloft. -/
theorem aloft_abandon {frames : List Frame} (h : (c.abandon frames).HasAloft index flight) :
    c.HasAloft index flight ∧ ∀ frame ∈ frames, ¬frame.Flies index flight := by
  induction frames generalizing c with
  | nil => exact ⟨h, fun _ hmem ↦ nomatch hmem⟩
  | cons frame rest ih =>
      obtain ⟨hleft, hrest⟩ := ih h
      have hfirst : c.HasAloft index flight ∧ ¬frame.Flies index flight := by
        dsimp only at hleft
        split at hleft
        · next landing errand group hstage hgroup =>
          rcases hleft.setGroup hgroup rfl with ⟨rfl, haloft⟩ | ⟨hother, hold⟩
          · replace haloft : (group.flights.flights.setIfInBounds landing .lost)[flight]? =
              some .aloft := haloft
            rw [Array.getElem?_setIfInBounds] at haloft
            split at haloft
            · split at haloft <;> cases haloft
            · next hne =>
              refine ⟨⟨group, hgroup, haloft⟩, ?_⟩
              rintro ⟨-, other, hother⟩
              rw [hstage] at hother
              cases hother
              exact hne rfl
          · exact ⟨hold, fun hflies ↦ hother hflies.1.symm⟩
        · next hnone =>
          refine ⟨hleft, ?_⟩
          rintro ⟨rfl, errand, hstage⟩
          obtain ⟨group, hgroup, -⟩ := hleft
          exact hnone flight errand group hstage hgroup
      refine ⟨hfirst.1, fun other hother ↦ ?_⟩
      rcases List.mem_cons.1 hother with rfl | hother
      · exact hfirst.2
      · exact hrest other hother

/-- A flight that is aloft after a turn of a frame is led by the frame then, or was aloft before and
not led by it. -/
theorem Turn.aloft {frame : Frame} {group after : Group} {stage : FrameStage}
    (turn : Turn c number task frame group action stage after)
    (haloft : after.flights.flights[flight]? = some .aloft) :
    (∃ errand, stage = .leading flight errand) ∨
      group.flights.flights[flight]? = some .aloft ∧
        ∀ errand, frame.stage ≠ .leading flight errand := by
  have hidle (hflights : after.flights.flights = group.flights.flights)
      (hstage : ∀ errand, frame.stage ≠ .leading flight errand) :
      (∃ errand, stage = .leading flight errand) ∨
        group.flights.flights[flight]? = some .aloft ∧
          ∀ errand, frame.stage ≠ .leading flight errand :=
    .inr ⟨hflights ▸ haloft, hstage⟩
  have hleads {landing : Nat} {errand errand' : Errand}
      (hflights : after.flights.flights = group.flights.flights)
      (hbefore : frame.stage = .leading landing errand)
      (hafter : stage = .leading landing errand') :
      (∃ errand, stage = .leading flight errand) ∨
        group.flights.flights[flight]? = some .aloft ∧
          ∀ errand, frame.stage ≠ .leading flight errand := by
    by_cases heq : landing = flight
    · exact .inl ⟨errand', heq ▸ hafter⟩
    · refine hidle hflights fun other hother ↦ ?_
      rw [hbefore] at hother
      cases hother
      exact heq rfl
  cases turn with
  | answered outcome after hstage hconsult =>
      have hkept := group.consult_kept frame.key c.now (frame.hearsToken && task.cancelled)
      rw [hconsult] at hkept
      exact hidle (by rw [hkept.flights]) (by simp [hstage])
  | missed after hstage hconsult =>
      have hkept := group.consult_kept frame.key c.now (frame.hearsToken && task.cancelled)
      rw [hconsult] at hkept
      exact hidle (by rw [hkept.flights]) (by simp [hstage])
  | joined landing hcontends hmem =>
      refine hidle rfl ?_
      rcases hcontends with hstage | ⟨landing, hstage, -⟩ <;> simp [hstage]
  | led hcontends hfree =>
      rw [Array.getElem?_push] at haloft
      split at haloft
      · next heq => exact .inl ⟨.recheck, heq ▸ rfl⟩
      · refine .inr ⟨haloft, ?_⟩
        rcases hcontends with hstage | ⟨landing, hstage, -⟩ <;> simp [hstage]
  | took landing outcome hstage => exact hidle rfl (by simp [hstage])
  | found landing value tier hstage => exact hleads rfl hstage rfl
  | loads landing node hstage => exact hleads rfl hstage rfl
  | fetches landing node peer hstage => exact hleads rfl hstage rfl
  | refused landing node peer sharesToken fault hstage =>
      exact hleads (by rw [(group.takeFetched_kept _ _ _).flights]) hstage rfl
  | landed landing outcome hstage =>
      replace haloft : (group.flights.flights.setIfInBounds landing (.landed outcome))[flight]? =
        some .aloft := haloft
      rw [Array.getElem?_setIfInBounds] at haloft
      split at haloft
      · split at haloft <;> cases haloft
      · next hne =>
        refine .inr ⟨haloft, fun errand hother ↦ ?_⟩
        rw [hstage] at hother
        cases hother
        exact hne rfl
  | loaded landing answer hstage =>
      exact hleads (by rw [(group.takeLoaded_kept _ _ _).flights]) hstage rfl
  | fetched landing peer answer hstage =>
      exact hleads (by rw [(group.takeFetched_kept _ _ _).flights]) hstage rfl

/-! ## Moves -/

/-- A cluster stays crewed if one task changes: a flight begins only where one of its frames leads
it, those that its frames led and that stay aloft are led by one still, and it keeps a frame or
pends no longer. -/
theorem Crewed.retask (h : Crewed c) {change : Task → Task} (htask : c.tasks[number]? = some task)
    (hretasks : c.Retasks number following change)
    (haloft : ∀ index flight, following.HasAloft index flight → c.HasAloft index flight ∨
      ∃ frame ∈ (change task).frames, frame.Flies index flight)
    (hled : ∀ frame ∈ task.frames, ∀ index flight, frame.Flies index flight →
      following.HasAloft index flight → ∃ other ∈ (change task).frames, other.Flies index flight)
    (hpending : (change task).pending = true → (change task).frames ≠ []) : Crewed following where
  led := by
    intro index flight hflight
    have hthere : (∃ frame ∈ (change task).frames, frame.Flies index flight) →
        ∃ number frame, following.HasFrame number frame ∧ frame.Flies index flight :=
      fun ⟨frame, hmem, hflies⟩ ↦ ⟨number, frame, ⟨_, hretasks.getElem? htask, hmem⟩, hflies⟩
    rcases haloft index flight hflight with hold | hnew
    · obtain ⟨other, frame, ⟨found, hfound, hmem⟩, hflies⟩ := h.led index flight hold
      by_cases heq : number = other
      · subst heq
        rw [htask] at hfound
        cases hfound
        exact hthere (hled frame hmem index flight hflies hflight)
      · exact ⟨other, frame, ⟨found, (hretasks.getElem?_ne heq).trans hfound, hmem⟩, hflies⟩
    · exact hthere hnew
  pending := by
    intro other found hfound hwaits
    rcases hretasks.cases hfound with hold | ⟨rfl, before, hbefore, rfl⟩
    · exact h.pending other found hold hwaits
    · rw [htask] at hbefore
      cases hbefore
      exact hpending hwaits

/-- A cluster stays crewed if frames of a task are given up after their flights are lost, and the
others lead as before. -/
theorem Crewed.abandon (h : Crewed c) {change : Task → Task}
    (htask : c.tasks[number]? = some task) (hretasks : c.Retasks number following change)
    (depth : Nat)
    (haloft : ∀ index flight, following.HasAloft index flight →
      (c.abandon (task.frames.take depth)).HasAloft index flight)
    (hled : ∀ frame ∈ task.frames.drop depth, ∀ index flight, frame.Flies index flight →
      ∃ other ∈ (change task).frames, other.Flies index flight)
    (hpending : (change task).pending = true → (change task).frames ≠ []) : Crewed following := by
  refine h.retask htask hretasks ?_ ?_ hpending
  · exact fun index flight hflight ↦ .inl (aloft_abandon (haloft index flight hflight)).1
  · intro frame hmem index flight hflies hflight
    rw [← List.take_append_drop depth task.frames] at hmem
    rcases List.mem_append.1 hmem with htaken | hdropped
    · exact absurd hflies ((aloft_abandon (haloft index flight hflight)).2 frame htaken)
    · exact hled frame hdropped index flight hflies

/-- A cluster stays crewed if its frames stay, no flight begins, and tasks that are new have a frame
or their answer. -/
theorem Crewed.around (h : Crewed c)
    (hframes : ∀ number frame, c.HasFrame number frame → following.HasFrame number frame)
    (haloft : ∀ index flight, following.HasAloft index flight → c.HasAloft index flight)
    (htasks : ∀ (number : Nat) (task : Task), following.tasks[number]? = some task →
      task.pending = true → task.frames ≠ [] ∨ c.tasks[number]? = some task) :
    Crewed following where
  led := by
    intro index flight hflight
    obtain ⟨number, frame, hframe, hflies⟩ := h.led index flight (haloft index flight hflight)
    exact ⟨number, frame, hframes number frame hframe, hflies⟩
  pending := by
    intro number task htask hwaits
    rcases htasks number task htask hwaits with hsome | hold
    · exact hsome
    · exact h.pending number task hold hwaits

/-- A cluster stays crewed if a task begins that has a frame or its answer. -/
theorem Crewed.push (h : Crewed c) {new : Task} (htasks : following.tasks = c.tasks.push new)
    (hnew : new.pending = true → new.frames ≠ [])
    (haloft : ∀ index flight, following.HasAloft index flight → c.HasAloft index flight) :
    Crewed following := by
  refine h.around ?_ haloft ?_
  · rintro number frame ⟨task, htask, hmem⟩
    refine ⟨task, ?_, hmem⟩
    rw [htasks, Array.getElem?_push,
      if_neg (Nat.ne_of_lt (Array.getElem?_eq_some_iff.1 htask).1), htask]
  · intro number task htask hwaits
    rw [htasks] at htask
    rcases cases_push htask with rfl | hold
    · exact .inl (hnew hwaits)
    · exact .inr hold

/-- A frame that is done leads no flight. -/
theorem not_flies_of_answered {frame : Frame} {outcome : Outcome}
    (hstage : frame.stage = .answered outcome) : ¬frame.Flies index flight := by
  rintro ⟨-, errand, hleads⟩
  cases hstage.symm.trans hleads

/-- A frame that goes on leading its flight leads the same one. -/
theorem flies_restage {frame : Frame} {landing : Nat} {errand errand' : Errand}
    (h : frame.Flies index flight) (hstage : frame.stage = .leading landing errand) :
    { frame with stage := .leading landing errand' }.Flies index flight := by
  obtain ⟨hindex, other, hleads⟩ := h
  rw [hstage] at hleads
  cases hleads
  exact ⟨hindex, errand', rfl⟩

/-- A turn keeps a cluster crewed. -/
theorem Crewed.turn (h : Crewed c) (htask : c.tasks[number]? = some task) {frame : Frame}
    {outer : List Frame} (hframes : task.frames = frame :: outer) {group after : Group}
    (hgroup : c.groups[frame.group]? = some group) {stage : FrameStage}
    (turn : Turn c number task frame group action stage after)
    (hreframes : c.Reframes number following ({ frame with stage } :: outer))
    (hgroups : following.groups = c.groups.setIfInBounds frame.group after) :
    Crewed following := by
  refine h.retask htask hreframes ?_ ?_ fun _ ↦ List.cons_ne_nil _ _
  · intro index flight hflight
    rcases hflight.setGroup hgroup hgroups with ⟨rfl, haloft⟩ | ⟨-, hold⟩
    · rcases turn.aloft haloft with ⟨errand, hstage⟩ | ⟨hold, -⟩
      · exact .inr ⟨_, List.mem_cons_self, rfl, errand, hstage⟩
      · exact .inl ⟨group, hgroup, hold⟩
    · exact .inl hold
  · intro other hmem index flight hflies hflight
    rw [hframes] at hmem
    rcases List.mem_cons.1 hmem with rfl | hmem
    · obtain ⟨rfl, errand, hleads⟩ := hflies
      rcases hflight.setGroup hgroup hgroups with ⟨-, haloft⟩ | ⟨hother, -⟩
      · rcases turn.aloft haloft with ⟨errand, hstage⟩ | ⟨-, hnone⟩
        · exact ⟨_, List.mem_cons_self, rfl, errand, hstage⟩
        · exact absurd hleads (hnone errand)
      · exact absurd rfl hother
    · exact ⟨other, List.mem_cons_of_mem _ hmem, hflies⟩

/-- Every move keeps a cluster crewed. -/
theorem Crewed.move (h : Crewed c) (move : Move c action following) : Crewed following := by
  have hkept {index : Nat} {group after : Group} {following : Cluster}
      (hgroup : c.groups[index]? = some group)
      (hgroups : following.groups = c.groups.setIfInBounds index after)
      (hflights : after.flights = group.flights) (other flight : Nat)
      (hflight : following.HasAloft other flight) : c.HasAloft other flight :=
    hflight.of_kept hgroup hgroups hflights
  have hsame {c following : Cluster} (hgroups : following.groups = c.groups) (other flight : Nat)
      (hflight : following.HasAloft other flight) : c.HasAloft other flight := by
    unfold HasAloft at hflight
    rwa [hgroups] at hflight
  cases move with
  | turned number task frame outer group _ stage after following htask hframes hgroup hturn
      hreframes hgroups => exact h.turn htask hframes hgroup hturn hreframes hgroups
  | forwarded number task frame outer group served flight home peer sharesToken node target
      following htask hframes hgroup hstage hpeek hhome hpick hcarrier hroute hserved hreframes
      hgroups =>
      refine h.retask htask hreframes
        (fun index flight hflight ↦ .inl (hkept hserved hgroups rfl index flight hflight)) ?_
        fun _ ↦ List.cons_ne_nil _ _
      intro other hmem index flight hflies _
      rw [hframes] at hmem
      rcases List.mem_cons.1 hmem with rfl | hmem
      · exact ⟨_, List.mem_cons_of_mem _ List.mem_cons_self, flies_restage hflies hstage⟩
      · exact ⟨other, List.mem_cons_of_mem _ (List.mem_cons_of_mem _ hmem), hflies⟩
  | handed number task frame parent outer group outcome flight peer following htask hframes
      hstage hparent hgroup hreframes hgroups =>
      have hflights := (group.takeFetched_kept parent.key c.now outcome).flights
      refine h.retask htask hreframes
        (fun index flight hflight ↦ .inl (hkept hgroup hgroups hflights index flight hflight)) ?_
        fun _ ↦ List.cons_ne_nil _ _
      intro other hmem index flight hflies _
      rw [hframes] at hmem
      rcases List.mem_cons.1 hmem with rfl | hmem
      · exact absurd hflies (not_flies_of_answered hstage)
      · rcases List.mem_cons.1 hmem with rfl | hmem
        · exact ⟨_, List.mem_cons_self, flies_restage hflies hparent⟩
        · exact ⟨other, List.mem_cons_of_mem _ hmem, hflies⟩
  | popped number task frame outer outcome following htask hframes hstage hreframes hgroups hsome =>
      refine h.retask htask hreframes
        (fun index flight hflight ↦ .inl (hsame hgroups index flight hflight)) ?_ fun _ ↦ hsome
      intro other hmem index flight hflies _
      rw [hframes] at hmem
      rcases List.mem_cons.1 hmem with rfl | hmem
      · exact absurd hflies (not_flies_of_answered hstage)
      · exact ⟨other, hmem, hflies⟩
  | finished number task frame outcome following htask hframes hstage hretasks hgroups =>
      refine h.retask htask hretasks
        (fun index flight hflight ↦ .inl (hsame hgroups index flight hflight)) ?_
        fun hpending ↦ by simp [Task.pending] at hpending
      intro other hmem index flight hflies _
      rw [hframes] at hmem
      obtain rfl := List.mem_singleton.1 hmem
      exact absurd hflies (not_flies_of_answered hstage)
  | heeded number depth task frame following htask hframe hcancelled hhears hawaits hreframes
      hgroups =>
      exact h.abandon htask hreframes (depth + 1) (hsame hgroups)
        (fun other hmem _ _ hflies ↦ ⟨other, List.mem_cons_of_mem _ hmem, hflies⟩)
        fun _ ↦ List.cons_ne_nil _ _
  | brokeOff number depth reason task frame flight peer group following htask hframe hstage hgroup
      hreframes hgroups =>
      have hflights := (group.takeFetched_kept frame.key c.now
        (.error (.transportFailure peer reason))).flights
      refine h.abandon htask hreframes (depth + 1) ?_ ?_ fun _ ↦ List.cons_ne_nil _ _
      · exact fun index flight hflight ↦ hflight.of_kept hgroup hgroups hflights
      · intro other hmem index flight hflies
        obtain ⟨hlt, rfl⟩ := List.getElem?_eq_some_iff.1 hframe
        rw [List.drop_eq_getElem_cons hlt] at hmem
        rcases List.mem_cons.1 hmem with rfl | hmem
        · exact ⟨_, List.mem_cons_self, flies_restage hflies hstage⟩
        · exact ⟨other, List.mem_cons_of_mem _ hmem, hflies⟩
  | expired number task deadline following htask hpending hdeadline hdue hretasks hgroups =>
      refine h.abandon htask hretasks task.frames.length ?_ (by simp)
        fun hwaits ↦ by simp [Task.pending] at hwaits
      rw [List.take_length]
      exact hsame hgroups
  | dropped number task following htask hpending hretasks hgroups =>
      refine h.abandon htask hretasks task.frames.length ?_ (by simp)
        fun hwaits ↦ by simp [Task.pending] at hwaits
      rw [List.take_length]
      exact hsame hgroups
  | fired number =>
      have hretasks : c.Retasks number (c.cancel number) fun t ↦ { t with cancelled := true } :=
        ⟨rfl, rfl, rfl⟩
      refine h.around ?_ (fun _ _ hflight ↦ hflight) ?_
      · rintro other frame ⟨task, htask, hmem⟩
        by_cases heq : number = other
        · subst heq
          exact ⟨_, hretasks.getElem? htask, hmem⟩
        · exact ⟨task, (hretasks.getElem?_ne heq).trans htask, hmem⟩
      · intro other task htask hwaits
        rcases hretasks.cases htask with hold | ⟨rfl, before, hbefore, rfl⟩
        · exact .inr hold
        · exact .inl (h.pending _ before hbefore hwaits)
  | asked => exact h.push rfl (fun _ ↦ List.cons_ne_nil _ _) fun _ _ hflight ↦ hflight
  | requested node method path name key index group deadline hgroup =>
      exact h.push rfl (fun _ ↦ List.cons_ne_nil _ _) (hkept hgroup rfl rfl)
  | responded =>
      refine h.push rfl (fun hwaits ↦ ?_) fun _ _ hflight ↦ hflight
      simp [Task.pending] at hwaits
  | removed index key group hgroup =>
      exact h.around (fun _ _ hframe ↦ hframe) (hkept hgroup rfl (group.remove_kept key).flights)
        fun _ _ htask _ ↦ .inr htask
  | cleared index group hgroup =>
      exact h.around (fun _ _ hframe ↦ hframe) (hkept hgroup rfl rfl) fun _ _ htask _ ↦ .inr htask
  | added | rewired =>
      exact h.around (fun _ _ hframe ↦ hframe) (fun _ _ hflight ↦ hflight) fun _ _ htask _ ↦
        .inr htask
  | created node name settings =>
      refine h.around (fun _ _ hframe ↦ hframe) ?_ fun _ _ htask _ ↦ .inr htask
      rintro index flight ⟨group, hgroup, haloft⟩
      rcases cases_push hgroup with rfl | hold
      · simp [Group.create, FlightTable.empty] at haloft
      · exact ⟨group, hold, haloft⟩
  | stayed _ _ hgroups htasks hnodes =>
      refine h.around ?_ (hsame hgroups) fun number task htask _ ↦ .inr (htasks ▸ htask)
      intro number frame hframe
      unfold HasFrame
      rw [htasks]
      exact hframe

/-- Every cluster that a run leads to is crewed. -/
theorem Runs.crewed {allowed : Cluster → Action → Prop} (run : Runs allowed empty c) :
    Crewed c := by
  induction run with
  | here => exact crewed_empty
  | next _ _ hact ih => exact ih.move (act?_move hact)

end Cluster

end ReadThrough
