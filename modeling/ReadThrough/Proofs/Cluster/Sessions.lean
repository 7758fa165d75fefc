import ReadThrough.Proofs.Cluster.Apart

/-!
# Operations on the groups of one name

An operation of a session leaves the gets that are under way at stations (`Carries`). An operation
on a name is one on the slice of that name, with the same reply, and one on another name leaves the
slice as it is (`Session.Apart.perform`).
-/

namespace ReadThrough

namespace Simulation

variable {s following : Simulation} {owners : List String} {number index : Nat} {st : Station}
  {name : String}

/-- A change that leaves each get that is under way at a station of the same name. -/
structure Carries (s following : Simulation) : Prop where
  lone : following.Lone
  stations : ∀ (number index : Nat) (st : Station), following.At number index st →
    ∃ place found, s.At number place found ∧ found.group.name = st.group.name

theorem Carries.faithful (h : Carries s following) (hfaithful : s.Faithful owners) :
    following.Faithful owners := fun number index st hat ↦ by
  obtain ⟨place, found, hfound, hname⟩ := h.stations number index st hat
  rw [hfaithful number place found hfound, hname]

/-- What a change of a cluster keeps of the gets and of the node. -/
structure Spares (s following : Simulation) : Prop where
  alone : following.Local
  gates : following.gates = s.gates
  sources : following.sources.size = following.cluster.groups.size
  calls : following.calls = s.calls
  size : following.cluster.tasks.size = s.cluster.tasks.size
  ended : ∀ (number : Nat) (task : Task), following.cluster.tasks[number]? = some task →
    ∃ before, s.cluster.tasks[number]? = some before ∧ (before.Over → task.Over)
  stations : ∀ (number index : Nat) (st : Station), s.At number index st →
    ∃ place found, following.At number place found ∧ st.group.name = found.group.name

theorem Spares.carries (h : Spares s following) (hlone : s.Lone)
    (hreached : Reached following.cluster) : Carries s following := by
  have hlone' : following.Lone := by
    refine ⟨hreached, h.alone, ?_, h.sources, fun number task htask ↦ ?_, ?_⟩
    · rw [Shut, h.gates]
      exact hlone.shut
    · obtain ⟨before, hbefore, hover⟩ := h.ended number task htask
      refine (hlone.gets number before hbefore).imp hover fun ⟨index, st, hat⟩ ↦ ?_
      obtain ⟨place, found, hfound, -⟩ := h.stations number index st hat
      exact ⟨place, found, hfound⟩
    · rw [h.calls, h.size]
      exact hlone.calls
  refine ⟨hlone', fun number index st hat ↦ ?_⟩
  -- backwards: a get that is at a station now was not over, and has one station only
  obtain ⟨before, hbefore, hover⟩ := h.ended number _ hat.task
  rcases hlone.gets number before hbefore with hdone | ⟨place, found, hfound⟩
  · cases (hover hdone).frames
  · obtain ⟨index', st', hat', hname⟩ := h.stations number place found hfound
    obtain ⟨-, rfl⟩ := hat.unique hat'
    exact ⟨place, found, hfound, hname⟩

/-- A node whose registry changes fetches nothing if it did not before. -/
theorem Local.registry (h : s.Local) {change : List (String × Nat) → List (String × Nat)}
    (hnodes : following.cluster.nodes =
      s.cluster.nodes.modify 0 fun node ↦ { node with registry := change node.registry }) :
    following.Local := by
  obtain ⟨node, hnode, hpick⟩ := h
  exact ⟨{ node with registry := change node.registry }, by rw [hnodes, hnode]; rfl, hpick⟩

namespace Lone

variable (h : s.Lone)
include h

theorem made (hnone : s.cluster.group? 0 name = none) (settings : GroupSettings)
    (source : Source) : Carries s (s.made name settings source) := by
  have hact : s.cluster.act? (.create 0 name settings) =
      some (s.made name settings source).cluster := by
    simp [Cluster.act?, Cluster.getOrCreate, hnone, Simulation.made, Cluster.modifyNode]
  refine Spares.carries ⟨h.alone.registry rfl, rfl, ?_, rfl, rfl,
    fun _ task htask ↦ ⟨task, htask, id⟩, fun number index st hat ↦ ⟨index, st, ?_, rfl⟩⟩ h
      (h.reached.next trivial hact)
  · simp [Simulation.made, h.sources]
  · refine ⟨hat.task, ?_, ?_, hat.call, hat.fits⟩
    · have hlt := (Array.getElem?_eq_some_iff.1 hat.group).1
      simp [Simulation.made, Array.getElem?_push_lt hlt, ← hat.group]
    · have hlt := (Array.getElem?_eq_some_iff.1 hat.source).1
      simp [Simulation.made, Array.getElem?_push_lt hlt, ← hat.source]

theorem removeGroup (name : String) :
    Carries s { s with cluster := (s.cluster.removeGroup 0 name).2 } :=
  Spares.carries ⟨h.alone.registry rfl, rfl, h.sources, rfl, rfl,
    fun _ task htask ↦ ⟨task, htask, id⟩, fun _ index st hat ↦ ⟨index, st,
      ⟨hat.task, hat.group, hat.source, hat.call, hat.fits⟩, rfl⟩⟩ h
    (h.reached.next trivial
      (show s.cluster.act? (.removeGroup 0 name) = some (s.cluster.removeGroup 0 name).2 from rfl))

theorem advance (span : Millis) : Carries s { s with cluster := s.cluster.advance span } :=
  Spares.carries ⟨h.alone, rfl, h.sources, rfl, rfl,
    fun _ task htask ↦ ⟨task, htask, id⟩, fun _ index st hat ↦ ⟨index, st,
      ⟨hat.task, hat.group, hat.source, hat.call, hat.fits⟩, rfl⟩⟩ h
    (h.reached.next trivial
      (show s.cluster.act? (.advance span) = some (s.cluster.advance span) from rfl))

/-- A key is removed from a group. -/
theorem remove {group : Group} (hgroup : s.cluster.groups[index]? = some group) (key : String) :
    Carries s { s with cluster := s.cluster.setGroup index (group.remove key).2 } := by
  have hact : s.cluster.act? (.remove index key) =
      some (s.cluster.setGroup index (group.remove key).2) := by
    simp [Cluster.act?, hgroup]
  refine Spares.carries ⟨h.alone, rfl, ?_, rfl, rfl, fun _ task htask ↦ ⟨task, htask, id⟩,
    fun number place st hat ↦ ?_⟩ h (h.reached.next trivial hact)
  · simp [Cluster.setGroup, h.sources]
  · by_cases heq : place = index
    · subst heq
      have hsame : st.group = group := Option.some.inj (hat.group.symm.trans hgroup)
      have hlt := (Array.getElem?_eq_some_iff.1 hgroup).1
      refine ⟨place, { st with group := (group.remove key).2 },
        ⟨hat.task, ?_, hat.source, hat.call, hat.fits⟩, ?_⟩
      · simp [Cluster.setGroup, hlt]
      · rw [hsame, (group.remove_kept key).name]
    · refine ⟨place, st, ⟨hat.task, ?_, hat.source, hat.call, hat.fits⟩, rfl⟩
      simpa [Cluster.setGroup, Array.getElem?_setIfInBounds, Ne.symm heq] using hat.group

theorem cancel (number : Nat) : Carries s { s with cluster := s.cluster.cancel number } := by
  have hact : s.cluster.act? (.cancel number) = some (s.cluster.cancel number) := rfl
  refine Spares.carries ⟨h.alone, rfl, h.sources, rfl, ?_, fun other task htask ↦ ?_,
    fun other index st hat ↦ ?_⟩ h (h.reached.next trivial hact)
  · exact Array.size_modify
  · simp only [Cluster.cancel, Cluster.modifyTask, Array.getElem?_modify] at htask
    split at htask
    · obtain ⟨before, hbefore, rfl⟩ := Option.map_eq_some_iff.1 htask
      exact ⟨before, hbefore, fun hover ↦ ⟨hover.frames, hover.settled⟩⟩
    · exact ⟨task, htask, id⟩
  · by_cases heq : number = other
    · subst heq
      refine ⟨index, { st with cancelled := true }, ⟨?_, hat.group, hat.source, hat.call,
        hat.fits⟩, rfl⟩
      simp [Cluster.cancel, Cluster.modifyTask, Array.getElem?_modify, hat.task]
      rfl
    · refine ⟨index, st, ⟨?_, hat.group, hat.source, hat.call, hat.fits⟩, rfl⟩
      simpa [Cluster.cancel, Cluster.modifyTask, Array.getElem?_modify, heq] using hat.task

/-- A get begins, and is the only one that was not at a station before. -/
theorem get {group : Group} (hgroup : s.cluster.groups[index]? = some group) (key : String)
    (hearsToken cancelled : Bool) (timeout : Option Millis) :
    let following :=
      { s with cluster := (s.cluster.get 0 index key hearsToken cancelled timeout).2 }
    following.Lone ∧ ∀ (other place : Nat) (st : Station), following.At other place st →
      s.At other place st ∨ other = s.cluster.tasks.size ∧ st.group = group := by
  intro following
  have hact : s.cluster.act? (.get 0 index key hearsToken cancelled timeout) =
      some following.cluster := by
    simp [Cluster.act?, hgroup, following]
  have htasks : ∀ (other : Nat), other ≠ s.cluster.tasks.size →
      following.cluster.tasks[other]? = s.cluster.tasks[other]? := fun other hne ↦ by
    simp [following, Cluster.get, Cluster.begin, Array.getElem?_push, hne]
  obtain ⟨source, hsource⟩ : ∃ source, s.sources[index]? = some source := by
    have hlt := (Array.getElem?_eq_some_iff.1 hgroup).1
    exact ⟨_, Array.getElem?_eq_getElem (h.sources ▸ hlt)⟩
  have hnew : following.At s.cluster.tasks.size index
      { group, source, call := none, key, hearsToken, cancelled
        deadline := timeout.map (s.cluster.now + ·), stage := .asked } := by
    -- calls are those of gets that had begun, so there is none yet under the new number
    refine ⟨?_, hgroup, hsource, List.lookup_eq_none_iff.2 fun call hmem ↦ ?_, ?_, ?_⟩
    · simp [following, Cluster.get, Cluster.begin, Station.task, Station.frame]
    · exact bne_iff_ne.2 (Nat.ne_of_lt (h.calls call hmem)).symm
    · exact fun hsome ↦ absurd hsome Bool.false_ne_true
    · exact fun _ _ ↦ FrameStage.noConfusion
  refine ⟨⟨h.reached.next trivial hact, h.alone, h.shut, h.sources, fun other task htask ↦ ?_,
    fun call hmem ↦ ?_⟩, fun other place st hat ↦ ?_⟩
  · by_cases heq : other = s.cluster.tasks.size
    · subst heq
      exact .inr ⟨_, _, hnew⟩
    · rw [htasks other heq] at htask
      rcases h.gets other task htask with hover | ⟨place, st, hat⟩
      · exact .inl hover
      · exact .inr ⟨place, st, (htasks other heq).trans hat.task, hat.group, hat.source, hat.call,
          hat.fits⟩
  · have hlt := h.calls call hmem
    simp only [following, Cluster.get, Cluster.begin, Array.size_push]
    omega
  · by_cases heq : other = s.cluster.tasks.size
    · subst heq
      obtain ⟨-, rfl⟩ := hat.unique hnew
      exact .inr ⟨rfl, rfl⟩
    · exact .inl ⟨(htasks other heq).symm.trans hat.task, hat.group, hat.source, hat.call,
        hat.fits⟩

end Lone

/-! ## Gets that are given up, and loaders that answer -/

theorem drop_of_over (h : ∀ task, s.cluster.tasks[number]? = some task → task.Over) :
    s.drop number = s.settle := by
  have hpending : ((s.cluster.tasks[number]?).any Task.pending) = false := by
    cases htask : s.cluster.tasks[number]? with
    | none => rfl
    | some task => exact (h task htask).settled
  have hdrop : s.cluster.drop number = s.cluster := by
    unfold Cluster.drop
    split
    · rfl
    · next task htask => rw [(h task htask).settled, if_neg Bool.false_ne_true]
  simp [drop, onCluster, hpending, hdrop]

/-- A get that is given up at its station. -/
theorem At.drop (h : s.At number index st) (hlone : s.Lone) :
    ∃ following, s.drop number = following.settle ∧
      Comes s number index following (st.giveUp .dropped) ∧ following.Lone := by
  have hpending : ((s.cluster.tasks[number]?).any Task.pending) = true := by
    rw [h.task]
    rfl
  have hdrop := Cluster.drop_station h.task h.group
  have hact : s.cluster.act? (.drop number) =
      some (s.cluster.put number index (st.giveUp .dropped)) := congrArg some hdrop
  have hcomes : Comes s number index _ (st.giveUp .dropped) := h.forget hlone.shut rfl rfl
  have hturns : st.Turns s.cluster.now s.name (st.giveUp .dropped) := .dropped
  refine ⟨_, ?_, hcomes, hlone.comes h hturns (hlone.reached.next trivial hact) hcomes⟩
  have hcluster : (s.forget number).cluster = s.cluster := by
    unfold Simulation.forget
    split <;> rfl
  simp only [Simulation.drop, hpending, if_true, onCluster, hcluster, hdrop]

/-- A get is given up at its station, if it is at one. -/
theorem Lone.drop (h : s.Lone) (number : Nat) :
    ∃ following, s.drop number = following.settle ∧ following.Lone ∧ Keeps s following := by
  rcases h.cases number with ⟨index, st, hat⟩ | hover
  · obtain ⟨following, hdrop, hcomes, hlone⟩ := hat.drop h
    have hturns : st.Turns s.cluster.now s.name (st.giveUp .dropped) := .dropped
    exact ⟨following, hdrop, hlone, hcomes.keeps hat hturns⟩
  · exact ⟨s, drop_of_over hover, h, rfl, rfl, rfl⟩

/-- A get whose loader answers at its station. -/
theorem At.answered (h : s.At number index st) (hlone : s.Lone) {answer : LoadAnswer}
    {deed : Deed} (hdeed : st.answer? s.cluster.now answer = some deed)
    (hcomes : Comes s number index following deed) : following.Lone := by
  have hact : s.cluster.act? (.answerLoad number answer) =
      some (s.cluster.put number index deed) :=
    (Cluster.answerLoad?_station h.task h.group answer).trans (by rw [hdeed]; rfl)
  have hturns : st.Turns s.cluster.now s.name deed := Station.answer?_turns hdeed
  exact hlone.comes h hturns (hlone.reached.next trivial hact) hcomes

/-- A get that is over takes no answer. -/
theorem answerLoad?_of_over (h : ∀ task, s.cluster.tasks[number]? = some task → task.Over)
    (answer : LoadAnswer) : s.answerLoad? number answer = none := by
  have hnone : s.cluster.answerLoad? number answer = none := by
    cases htask : s.cluster.tasks[number]? with
    | none => simp [Cluster.answerLoad?, htask]
    | some task => simp [Cluster.answerLoad?, htask, (h task htask).frames]
  simp [answerLoad?, hnone]

/-- The loader of a get answers where the get is at a station. -/
theorem Lone.answerLoad? (h : s.Lone) {answer : LoadAnswer}
    (hanswer : s.answerLoad? number answer = some following) :
    ∃ index st deed, s.At number index st ∧ st.Turns s.cluster.now s.name deed ∧
      Comes s number index following deed ∧ following.Lone := by
  rcases h.cases number with ⟨index, st, hat⟩ | hover
  · have hrel := hat.answerLoad? h.shut answer
    rw [hanswer] at hrel
    obtain ⟨deed, hdeed, hcomes⟩ := exists_of_rel hrel
    exact ⟨index, st, deed, hat, Station.answer?_turns hdeed, hcomes,
      hat.answered h hdeed hcomes⟩
  · rw [answerLoad?_of_over hover] at hanswer
    cases hanswer

/-! ## Operations on a name and on others -/

namespace Split

variable {part following' : Simulation} {other : String}

/-- A change that leaves the gets under way where they are leaves the whole split. -/
theorem carries (h : Split owners name s part) (hcarries : Carries s following)
    (hlone : following'.Lone) (hslice : following'.ungated = following.slice owners name)
    (hsize : following.cluster.tasks.size = s.cluster.tasks.size)
    (hfinished : following.cluster.finished = s.cluster.finished) :
    Split owners name following following' :=
  ⟨hcarries.lone, hlone, hslice, hsize ▸ h.size, hcarries.faithful h.faithful,
    hfinished ▸ h.finished⟩

variable (h : Split owners name s part)
include h

theorem group?_eq : part.cluster.group? 0 name =
    (s.cluster.group? 0 name).map (rank name s.cluster.instances) := by
  rw [h.cluster_eq]
  exact group?_slice s owners name

/-- An instance of the name is one of the slice. -/
theorem getElem?_groups (hinstance : s.cluster.instances[index]? = some name) :
    part.cluster.groups[rank name s.cluster.instances index]? = s.cluster.groups[index]? := by
  rw [h.cluster_eq]
  simp only [Cluster.slice, List.getElem?_toArray, getElem?_share hinstance,
    Array.getElem?_toList]

theorem size_groups : part.cluster.groups.size =
    rank name s.cluster.instances s.cluster.groups.size := by
  have hgroups := length_instances s.cluster
  rw [h.cluster_eq, Cluster.slice, List.size_toArray, length_share hgroups, rank_of_le]
  exact Nat.le_of_eq (hgroups.trans Array.length_toList)

section

variable (settings : GroupSettings) (source : Source)

theorem made (hnone : s.cluster.group? 0 name = none) :
    Split owners name (s.made name settings source) (part.made name settings source) := by
  have hnone' : part.cluster.group? 0 name = none := by rw [h.group?_eq, hnone, Option.map_none]
  refine h.carries (h.whole.made hnone settings source)
    (h.lone.made hnone' settings source).lone ?_ rfl rfl
  rw [slice_made h.whole settings source hnone, ← h.slice]
  rfl

theorem made_of_ne (hnone : s.cluster.group? 0 other = none) (hne : other ≠ name) :
    Split owners name (s.made other settings source) part :=
  h.carries (h.whole.made hnone settings source) h.lone
    (h.slice.trans (slice_made_of_ne h.whole settings source hne).symm) rfl rfl

end

theorem removeGroup : Split owners name
    { s with cluster := (s.cluster.removeGroup 0 name).2 }
    { part with cluster := (part.cluster.removeGroup 0 name).2 } := by
  refine h.carries (h.whole.removeGroup name) (h.lone.removeGroup name).lone ?_ rfl rfl
  rw [slice_removeGroup h.whole, ← h.slice]
  rfl

theorem removeGroup_of_ne (hne : other ≠ name) :
    Split owners name { s with cluster := (s.cluster.removeGroup 0 other).2 } part :=
  h.carries (h.whole.removeGroup other) h.lone
    (h.slice.trans (slice_removeGroup_of_ne h.whole owners hne).symm) rfl rfl

theorem advance (span : Millis) : Split owners name
    { s with cluster := s.cluster.advance span }
    { part with cluster := part.cluster.advance span } := by
  refine h.carries (h.whole.advance span) (h.lone.advance span).lone ?_ rfl rfl
  show { part.ungated with cluster := part.ungated.cluster.advance span } = _
  rw [h.slice]
  rfl

theorem cancel (howner : owners[number]? = some name) : Split owners name
    { s with cluster := s.cluster.cancel number }
    { part with cluster := part.cluster.cancel (rank name owners number) } := by
  refine h.carries (h.whole.cancel number) (h.lone.cancel _).lone ?_ Array.size_modify rfl
  rw [slice_cancel s howner, ← h.slice]
  rfl

theorem cancel_of_ne (howner : owners[number]? ≠ some name) :
    Split owners name { s with cluster := s.cluster.cancel number } part := by
  refine h.carries (h.whole.cancel number) h.lone (h.slice.trans ?_) Array.size_modify rfl
  cases howner' : owners[number]? with
  | some other =>
      exact (slice_cancel_of_ne s howner' fun heq ↦ howner (howner'.trans (congrArg some heq))).symm
  | none =>
      -- a token of no get fires for nobody
      have hle : s.cluster.tasks.size ≤ number := h.size ▸ List.getElem?_eq_none_iff.1 howner'
      have htasks : s.cluster.tasks.modify number
          (fun task ↦ { task with cancelled := true }) = s.cluster.tasks := by
        refine Array.ext_getElem? fun other ↦ ?_
        rw [Array.getElem?_modify]
        split
        · next heq => rw [← heq, Array.getElem?_eq_none hle, Option.map_none]
        · rfl
      rw [Cluster.cancel, Cluster.modifyTask, htasks]

/-- A key is removed from an instance of the name. -/
theorem remove {group : Group} (hgroup : s.cluster.groups[index]? = some group)
    (hname : group.name = name) (key : String) : Split owners name
    { s with cluster := s.cluster.setGroup index (group.remove key).2 }
    { part with
      cluster := part.cluster.setGroup (rank name s.cluster.instances index)
        (group.remove key).2 } := by
  subst hname
  have hgroup' := (h.getElem?_groups (instance_of_group hgroup)).trans hgroup
  refine h.carries (h.whole.remove hgroup key) (h.lone.remove hgroup' key).lone ?_ rfl rfl
  rw [slice_setGroup hgroup (group.remove_kept key).name, ← h.slice]
  rfl

theorem remove_of_ne {group : Group} (hgroup : s.cluster.groups[index]? = some group)
    (hname : group.name ≠ name) (key : String) : Split owners name
    { s with cluster := s.cluster.setGroup index (group.remove key).2 } part :=
  h.carries (h.whole.remove hgroup key) h.lone
    (h.slice.trans (slice_setGroup_of_ne hgroup (group.remove_kept key).name hname).symm) rfl rfl

section

variable {group : Group} (hgroup : s.cluster.groups[index]? = some group) (key : String)
  (hearsToken cancelled : Bool) (timeout : Option Millis)
include hgroup

/-- A get that begins leaves the whole split, on whichever name it is. -/
theorem begins (hlone : following'.Lone)
    (hslice : following'.ungated =
      ({ s with cluster := (s.cluster.get 0 index key hearsToken cancelled timeout).2 } :
        Simulation).slice (owners ++ [group.name]) name) :
    Split (owners ++ [group.name]) name
      { s with cluster := (s.cluster.get 0 index key hearsToken cancelled timeout).2 }
      following' := by
  obtain ⟨hwhole, hstations⟩ := h.whole.get hgroup key hearsToken cancelled timeout
  refine ⟨hwhole, hlone, hslice, ?_, fun other place st hat ↦ ?_, fun other hmem ↦ ?_⟩
  · simp [Cluster.get, Cluster.begin, h.size]
  · rcases hstations other place st hat with hbefore | ⟨rfl, hsame⟩
    · have howner := h.faithful other place st hbefore
      rw [List.getElem?_append_left (List.getElem?_eq_some_iff.1 howner).1, howner]
    · rw [← h.size, List.getElem?_concat_length, hsame]
  · rw [List.length_append]
    exact Nat.lt_of_lt_of_le (h.finished other hmem) (Nat.le_add_right ..)

theorem get (hname : group.name = name) : Split (owners ++ [name]) name
    { s with cluster := (s.cluster.get 0 index key hearsToken cancelled timeout).2 }
    { part with
      cluster := (part.cluster.get 0 (rank name s.cluster.instances index) key hearsToken cancelled
        timeout).2 } := by
  subst hname
  have hgroup' := (h.getElem?_groups (instance_of_group hgroup)).trans hgroup
  refine h.begins hgroup key hearsToken cancelled timeout
    (h.lone.get hgroup' key hearsToken cancelled timeout).1 ?_
  rw [slice_get h.whole h.size h.finished, ← h.slice]
  rfl

theorem get_of_ne (hname : group.name ≠ name) : Split (owners ++ [group.name]) name
    { s with cluster := (s.cluster.get 0 index key hearsToken cancelled timeout).2 } part :=
  h.begins hgroup key hearsToken cancelled timeout h.lone (h.slice.trans
    (slice_get_of_ne h.whole h.size h.finished hname key hearsToken cancelled timeout).symm)

end

/-- A get on the name that is given up is given up in the slice. -/
theorem drop (howner : owners[number]? = some name) :
    Split owners name (s.drop number) (part.drop (rank name owners number)) := by
  rcases h.whole.cases number with ⟨index, st, hat⟩ | hover
  · have hname := h.faithful.name_eq hat howner
    have hpart := h.part_at hat hname
    obtain ⟨following, hdrop, hcomes, hlone⟩ := hat.drop h.whole
    obtain ⟨following', hdrop', hcomes', hlone'⟩ := hpart.drop h.lone
    have hturns : st.Turns s.cluster.now s.name (st.giveUp .dropped) := .dropped
    rw [hdrop, hdrop']
    exact (h.own hat hturns hcomes hlone hname hcomes' hlone').settle
  · rw [drop_of_over hover, drop_of_over fun task ↦ h.part_over howner hover]
    exact h.settle

theorem drop_of_ne (howner : owners[number]? ≠ some name) :
    Split owners name (s.drop number) part.settle := by
  rcases h.whole.cases number with ⟨index, st, hat⟩ | hover
  · have hname : st.group.name ≠ name := fun heq ↦
      howner (heq ▸ h.faithful number index st hat)
    obtain ⟨following, hdrop, hcomes, hlone⟩ := hat.drop h.whole
    have hturns : st.Turns s.cluster.now s.name (st.giveUp .dropped) := .dropped
    rw [hdrop]
    exact (h.other hat hturns hcomes hlone hname).settle
  · rw [drop_of_over hover]
    exact h.settle

/-- The loader of a get on the name answers if it does in the slice. -/
theorem answerLoad? (howner : owners[number]? = some name) (answer : LoadAnswer) :
    Option.Rel (Split owners name) (s.answerLoad? number answer)
      (part.answerLoad? (rank name owners number) answer) := by
  rcases h.whole.cases number with ⟨index, st, hat⟩ | hover
  · have hname := h.faithful.name_eq hat howner
    have hpart := h.part_at hat hname
    have hrel := hat.answerLoad? h.whole.shut answer
    have hrel' := hpart.answerLoad? h.lone.shut answer
    rw [h.now_eq] at hrel'
    refine rel_both hrel hrel' fun after after' deed hdeed hcomes hcomes' ↦ ?_
    have hturns : st.Turns s.cluster.now s.name deed := Station.answer?_turns hdeed
    exact h.own hat hturns hcomes (hat.answered h.whole hdeed hcomes) hname hcomes'
      (hpart.answered h.lone (h.now_eq ▸ hdeed) hcomes')
  · rw [answerLoad?_of_over hover, answerLoad?_of_over fun task ↦ h.part_over howner hover]
    exact .none

/-- The loader of a get on another name answers, and the slice stays as it is. -/
theorem answerLoad?_of_ne (howner : owners[number]? ≠ some name) {answer : LoadAnswer}
    (hanswer : s.answerLoad? number answer = some following) :
    Split owners name following part := by
  obtain ⟨index, st, deed, hat, hturns, hcomes, hlone⟩ := h.whole.answerLoad? hanswer
  exact h.other hat hturns hcomes hlone fun heq ↦
    howner (heq ▸ h.faithful number index st hat)

end Split

end Simulation

end ReadThrough
