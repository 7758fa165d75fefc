import ReadThrough.Proofs.Cluster.Census

/-!
# The frame that works

A move takes at most one frame to another stage. `Works` says how it does so and what becomes of the
group of the frame, and `Move.worker` that all other groups hold and remember what they did, and all
other frames that are left are at the stages that they were at.
-/

namespace ReadThrough

/-- A group that holds, remembers and admits what another one does. -/
structure Group.Alike (after group : Group) : Prop where
  name : after.name = group.name
  cache : after.cache = group.cache
  absences : after.absences = group.absences
  settings : after.settings = group.settings
  gate : after.gate = group.gate

theorem Group.Alike.refl (group : Group) : group.Alike group :=
  ⟨rfl, rfl, rfl, rfl, rfl⟩

namespace Cluster

/-! ## Frames and their places -/

/-- The frame of a task that a number of frames lie outside of. -/
def frame? (c : Cluster) (number height : Nat) : Option Frame := do
  (← c.tasks[number]?).frames.reverse[height]?

/-- The tasks of the frames on a group, each with the number of frames outside of it. -/
def places (c : Cluster) (index : Nat) : List (Nat × Nat) :=
  c.tasks.toList.zipIdx.flatMap fun (task, number) ↦
    (task.frames.reverse.zipIdx.filter fun (frame, _) ↦ frame.group = index).map
      fun (_, height) ↦ (number, height)

theorem frame?_eq_some {c : Cluster} {number height : Nat} {frame : Frame} :
    c.frame? number height = some frame ↔ c.FrameAt number height frame := by
  simp only [frame?, bind, Option.bind_eq_some_iff, FrameAt]
  refine exists_congr fun task ↦ ⟨?_, ?_⟩
  · rintro ⟨htask, hat⟩
    obtain ⟨hlt, hat⟩ := List.getElem?_eq_some_iff.1 hat
    refine ⟨(task.frames.reverse.take height).reverse, htask, ?_, ?_⟩
    · refine ⟨(task.frames.reverse.drop (height + 1)).reverse, ?_⟩
      have hsplit := List.take_append_drop height task.frames.reverse
      rw [List.drop_eq_getElem_cons hlt, hat] at hsplit
      simpa using congrArg List.reverse hsplit
    · rw [List.length_reverse, List.length_take_of_le (Nat.le_of_lt hlt)]
  · rintro ⟨outer, htask, ⟨inner, hframes⟩, rfl⟩
    refine ⟨htask, ?_⟩
    simp [← hframes]

theorem mem_places {c : Cluster} {index number height : Nat} :
    (number, height) ∈ c.places index ↔
      ∃ frame, c.FrameAt number height frame ∧ frame.group = index := by
  simp only [← frame?_eq_some, frame?, bind, Option.bind_eq_some_iff, places, List.mem_flatMap,
    List.mem_map, List.mem_filter, Prod.exists, List.mem_zipIdx_iff_getElem?, Array.getElem?_toList]
  constructor
  · rintro ⟨task, other, htask, frame, place, ⟨hframe, hgroup⟩, heq⟩
    cases heq
    exact ⟨frame, ⟨task, htask, hframe⟩, of_decide_eq_true hgroup⟩
  · rintro ⟨frame, ⟨task, htask, hframe⟩, hgroup⟩
    exact ⟨task, number, htask, frame, height, ⟨hframe, decide_eq_true hgroup⟩, rfl⟩

/-! ## What a frame does -/

/-- The group whose contents an action takes out from outside. -/
def Action.purges? : Action → Option Nat
  | .remove index _ | .clear index => some index
  | _ => none

/-- How a move takes a frame to another stage, and what it leaves of its group: it is the turn of
the frame, the frame forwards its key to a node of the cluster, its fetch comes to an end because
the frame there hands on an outcome or the connection breaks, or it notices its token. -/
inductive Works (c : Cluster) (action : Action) (number height : Nat) (frame : Frame)
    (group : Group) : FrameStage → Group → Prop where
  | turned (task : Task) (outer : List Frame) (stage : FrameStage) (after : Group) :
      c.tasks[number]? = some task → task.frames = frame :: outer → outer.length = height →
      Turn c number task frame group action stage after →
      Works c action number height frame group stage after
  | forwarded (outer : List Frame) (flight : Nat) (home : Node) (peer : String)
      (sharesToken : Bool) (node target : Nat) (after : Group) :
      action = .step number → c.Misses number frame outer group home → outer.length = height →
      frame.stage = .leading flight .recheck → home.membership.pick frame.key = .peer peer →
      home.carrier = .network sharesToken → c.route peer group.name = .ok (node, target) →
      after.Alike group →
      Works c action number height frame group (.leading flight (.fetching peer)) after
  | handed (task : Task) (inner : Frame) (outer : List Frame) (outcome : Outcome) (flight : Nat)
      (peer : String) :
      action = .step number → c.tasks[number]? = some task →
      task.frames = inner :: frame :: outer → outer.length = height →
      inner.stage = .answered outcome → frame.stage = .leading flight (.fetching peer) →
      Works c action number height frame group
        (.leading flight (group.takeFetched frame.key c.now outcome).1.errand)
        (group.takeFetched frame.key c.now outcome).2
  | brokeOff (depth : Nat) (reason : String) (task : Task) (flight : Nat) (peer : String)
      (left : Group) :
      action = .breakOff number depth reason → c.tasks[number]? = some task →
      task.frames[depth + 1]? = some frame → task.frames.length = depth + height + 2 →
      frame.stage = .leading flight (.fetching peer) → left.Alike group →
      Works c action number height frame group
        (.leading flight
          (left.takeFetched frame.key c.now (.error (.transportFailure peer reason))).1.errand)
        (left.takeFetched frame.key c.now (.error (.transportFailure peer reason))).2
  | heeded (depth : Nat) (after : Group) :
      action = .heed number depth → frame.stage.awaits = true → after.Alike group →
      Works c action number height frame group (.answered (.error .cancelled)) after

/-- Of two clusters, one before a move and one after it, all groups but some hold the same, and all
frames but some are at the same stage. -/
structure Undisturbed (c following : Cluster) (touched : Nat → Prop) (moved : Nat → Nat → Prop) :
    Prop where
  groups : ∀ index group, c.groups[index]? = some group → ¬touched index →
    ∃ after, following.groups[index]? = some after ∧ after.Alike group
  frames : ∀ number height frame next, c.FrameAt number height frame →
    following.FrameAt number height next → ¬moved number height → next = frame

variable {c following : Cluster} {action : Action} {number mover height index : Nat}
  {task : Task} {frame : Frame}

/-! ## Groups that are left alone -/

theorem abandon_alike (frames : List Frame) {group : Group} (h : c.groups[index]? = some group) :
    ∃ after, (c.abandon frames).groups[index]? = some after ∧ after.Alike group := by
  obtain ⟨after, hafter, -⟩ := abandon_rests frames h
  obtain ⟨before, flights, hbefore, rfl⟩ := group_of_abandon hafter
  cases h.symm.trans hbefore
  exact ⟨_, hafter, rfl, rfl, rfl, rfl, rfl⟩

theorem alike_of_getElem? {group : Group} (h : c.groups[index]? = some group) :
    ∃ kept, c.groups[index]? = some kept ∧ kept.Alike group :=
  ⟨group, h, .refl group⟩

theorem alike_of_ne {group after : Group} {other : Nat} (h : c.groups[index]? = some group)
    (hne : index ≠ other) :
    ∃ kept, (c.groups.setIfInBounds other after)[index]? = some kept ∧ kept.Alike group := by
  rcases cases_setIfInBounds h other after with ⟨heq, -⟩ | ⟨-, hafter⟩
  · exact absurd heq.symm hne
  · exact ⟨group, hafter, .refl group⟩

/-- Where one group is put back that holds the same, so do all. -/
theorem setIfInBounds_alike {group found after : Group} {other : Nat}
    (hgroup : c.groups[index]? = some group) (hfound : c.groups[other]? = some found)
    (halike : after.Alike found) :
    ∃ kept, (c.groups.setIfInBounds other after)[index]? = some kept ∧ kept.Alike group := by
  rcases cases_setIfInBounds hgroup other after with ⟨rfl, hafter⟩ | ⟨-, hafter⟩
  · cases hgroup.symm.trans hfound
    exact ⟨after, hafter, halike⟩
  · exact ⟨group, hafter, .refl group⟩

/-! ## Frames that are left alone -/

/-- Where the frames of one task change, the others are as before, and so are those of its frames
that stay. -/
theorem Retasks.undisturbed {change : Task → Task} {moved : Nat → Nat → Prop}
    (h : c.Retasks mover following change) (htask : c.tasks[mover]? = some task)
    (hkept : ∀ frame outer, frame :: outer <:+ (change task).frames → ¬moved mover outer.length →
      frame :: outer <:+ task.frames ∨ task.frames.length ≤ outer.length)
    (number height : Nat) (frame next : Frame) (hat : c.FrameAt number height frame)
    (hnext : following.FrameAt number height next) (hspared : ¬moved number height) :
    next = frame := by
  obtain ⟨found, outer, hfound, hsuffix, rfl⟩ := hnext
  rcases h.cases hfound with hold | ⟨rfl, before, hbefore, rfl⟩
  · exact FrameAt.unique ⟨found, outer, hold, hsuffix, rfl⟩ hat
  · cases htask.symm.trans hbefore
    rcases hkept next outer hsuffix hspared with hthere | hbeyond
    · exact FrameAt.unique ⟨task, outer, htask, hthere, rfl⟩ hat
    · obtain ⟨found, rest, hfound, hwithin, hlength⟩ := hat
      cases htask.symm.trans hfound
      have hlt := hwithin.length_le
      rw [List.length_cons, hlength] at hlt
      exact absurd hbeyond (Nat.not_le.2 hlt)

/-- The tasks that there were have the frames that they had. -/
def Steady (c following : Cluster) : Prop :=
  ∀ (number : Nat) (task found : Task), c.tasks[number]? = some task →
    following.tasks[number]? = some found → found.frames = task.frames

theorem steady_of_eq (htasks : following.tasks = c.tasks) : c.Steady following := by
  intro number task found htask hfound
  rw [htasks, htask] at hfound
  cases hfound
  rfl

theorem steady_of_push {new : Task} (htasks : following.tasks = c.tasks.push new) :
    c.Steady following := by
  intro number task found htask hfound
  rw [htasks, Array.getElem?_push,
    if_neg (Nat.ne_of_lt (Array.getElem?_eq_some_iff.1 htask).1), htask] at hfound
  cases hfound
  rfl

theorem Retasks.steady {change : Task → Task} (h : c.Retasks mover following change)
    (hchange : ∀ task, (change task).frames = task.frames) : c.Steady following := by
  intro number task found htask hfound
  rcases h.cases hfound with hold | ⟨rfl, before, hbefore, rfl⟩
  · cases htask.symm.trans hold
    rfl
  · cases htask.symm.trans hbefore
    exact hchange task

/-- Where the tasks have the frames that they had, these are at the stages that they were at. -/
theorem Steady.undisturbed {touched : Nat → Prop} (h : c.Steady following)
    (hgroups : ∀ (index : Nat) (group : Group), c.groups[index]? = some group → ¬touched index →
      ∃ kept : Group, following.groups[index]? = some kept ∧ kept.Alike group) :
    Undisturbed c following touched fun _ _ ↦ False := by
  refine ⟨hgroups, ?_⟩
  rintro number height frame next ⟨task, outer, htask, hsuffix, rfl⟩
    ⟨found, rest, hfound, hwithin, hlength⟩ -
  rw [h number task found htask hfound] at hwithin
  exact FrameAt.unique ⟨task, rest, htask, hwithin, hlength⟩ ⟨task, outer, htask, hsuffix, rfl⟩

/-- Where frames of one task are gone, and groups at most lost flights for it, all that is left is
as before. -/
theorem Retasks.undisturbed_of_suffix {change : Task → Task} {lost : List Frame}
    {touched : Nat → Prop} (h : c.Retasks mover following change)
    (htask : c.tasks[mover]? = some task) (hframes : (change task).frames <:+ task.frames)
    (hgroups : following.groups = (c.abandon lost).groups) :
    Undisturbed c following touched fun _ _ ↦ False := by
  refine ⟨fun index group hgroup _ ↦ hgroups ▸ abandon_alike lost hgroup, ?_⟩
  exact Retasks.undisturbed h htask fun frame outer hsuffix _ ↦ .inl (hsuffix.trans hframes)

/-- What becomes of a frame that a move takes to another stage, and of its group. -/
def WorksAt (c : Cluster) (action : Action) (following : Cluster) (number height : Nat) : Prop :=
  ∃ frame group stage after, c.FrameAt number height frame ∧
    c.groups[frame.group]? = some group ∧
    Works c action number height frame group stage after ∧
    following.FrameAt number height { frame with stage } ∧
    following.groups[frame.group]? = some after ∧
    Undisturbed c following (· = frame.group) fun other place ↦ other = number ∧ place = height

/-- One frame of a task is taken to another stage, its group is put back, and the frames inside of
it are gone. -/
theorem Retasks.worksAt {lost outer : List Frame} {left : Array Group} {group after : Group}
    {stage : FrameStage}
    (h : c.Reframes number following ({ frame with stage } :: outer))
    (htask : c.tasks[number]? = some task) (hframes : task.frames = lost ++ frame :: outer)
    (hgroup : c.groups[frame.group]? = some group)
    (hworks : Works c action number outer.length frame group stage after)
    (hleft : ∀ (index : Nat) (group : Group), c.groups[index]? = some group →
      ∃ kept : Group, left[index]? = some kept ∧ kept.Alike group)
    (hgroups : following.groups = left.setIfInBounds frame.group after) :
    WorksAt c action following number outer.length := by
  have hthere : frame :: outer <:+ task.frames := hframes ▸ List.suffix_append lost _
  obtain ⟨kept, hkept, -⟩ := hleft frame.group group hgroup
  refine ⟨frame, group, stage, after, ⟨task, outer, htask, hthere, rfl⟩, hgroup, hworks,
    ⟨_, outer, Retasks.getElem? h htask, List.suffix_rfl, rfl⟩, ?_, ?_, ?_⟩
  · rw [hgroups, Array.getElem?_setIfInBounds, if_pos rfl,
      if_pos (Array.getElem?_eq_some_iff.1 hkept).1]
  · intro index other hother hne
    obtain ⟨alike, halike⟩ := hleft index other hother
    refine ⟨alike, ?_⟩
    rw [hgroups, Array.getElem?_setIfInBounds, if_neg (Ne.symm hne)]
    exact halike
  · refine Retasks.undisturbed h htask fun next rest hsuffix hspared ↦ ?_
    rcases List.suffix_cons_iff.1 hsuffix with heq | hwithin
    · cases heq
      exact absurd ⟨rfl, rfl⟩ hspared
    · exact .inl (hwithin.trans ((List.suffix_cons frame outer).trans hthere))

/-! ## Every move -/

/-- Every frame is on a group. -/
def Grouped (c : Cluster) : Prop :=
  ∀ number frame, c.HasFrame number frame → ∃ group, c.groups[frame.group]? = some group

/-- A frame that forwards its key waits for the frame inside of it, and the group that is reached
holds what it did. -/
theorem worksAt_forwarded {outer : List Frame} {group served : Group} {flight : Nat} {home : Node}
    {peer : String} {sharesToken : Bool} {node target : Nat}
    (hmisses : c.Misses number frame outer group home)
    (hstage : frame.stage = .leading flight .recheck)
    (hpick : home.membership.pick frame.key = .peer peer)
    (hcarrier : home.carrier = .network sharesToken)
    (hroute : c.route peer group.name = .ok (node, target))
    (hserved : c.groups[target]? = some served)
    (hreframes : c.Reframes number following
      ({ node, group := target, key := frame.key
         hearsToken := sharesToken && frame.hearsToken, stage := .asked } ::
        { frame with stage := .leading flight (.fetching peer) } :: outer))
    (hgroups : following.groups = c.groups.setIfInBounds target served.recordServerRequest) :
    WorksAt c (.step number) following number outer.length := by
  obtain ⟨task, htask, hframes⟩ := hmisses.task
  have halike (index : Nat) (group : Group) (hgroup : c.groups[index]? = some group) :
      ∃ kept : Group, following.groups[index]? = some kept ∧ kept.Alike group :=
    hgroups ▸ setIfInBounds_alike hgroup hserved ⟨rfl, rfl, rfl, rfl, rfl⟩
  obtain ⟨after, hafter, hkept⟩ := halike frame.group group hmisses.served
  refine ⟨frame, group, _, after, ⟨task, outer, htask, hframes ▸ List.suffix_rfl, rfl⟩,
    hmisses.served, .forwarded outer flight home peer sharesToken node target after rfl hmisses rfl
      hstage hpick hcarrier hroute hkept,
    ⟨_, outer, Retasks.getElem? hreframes htask, List.suffix_cons _ _, rfl⟩, hafter, ?_, ?_⟩
  · exact fun index group hgroup _ ↦ halike index group hgroup
  · refine Retasks.undisturbed hreframes htask fun next rest hsuffix hspared ↦ ?_
    rcases List.suffix_cons_iff.1 hsuffix with heq | hwithin
    · cases heq
      exact .inr (by simp [hframes])
    · rcases List.suffix_cons_iff.1 hwithin with heq | hwithin
      · cases heq
        exact absurd ⟨rfl, rfl⟩ hspared
      · exact .inl (hwithin.trans (hframes ▸ List.suffix_cons frame outer))

/-- No group takes in an answer. -/
def Unfed (c : Cluster) (action : Action) : Prop :=
  ∀ fill, c.fill? action = some fill → c.groups[fill.group]? = none

theorem unfed_of_fill? (h : c.fill? action = none) : c.Unfed action :=
  fun _ hfill ↦ nomatch h.symm.trans hfill

/-- A frame that hands on an outcome, but not to a fetch of a group that is there, feeds nothing. -/
theorem unfed_handing {outer : List Frame} (htask : c.tasks[number]? = some task)
    (hframes : task.frames = frame :: outer)
    (hnone : ∀ (parent : Frame) (rest : List Frame) (flight : Nat) (peer : String),
      outer = parent :: rest → parent.stage = .leading flight (.fetching peer) →
      c.groups[parent.group]? = none) : c.Unfed (.step number) := by
  intro fill hfill
  simp only [fill?, htask, hframes, Option.bind_eq_bind, Option.bind_some] at hfill
  split at hfill
  · next inner parent rest heq =>
    cases heq
    split at hfill
    · next outcome flight peer hstage hparent =>
      cases hfill
      exact hnone parent rest flight peer rfl hparent
    · cases hfill
  · cases hfill

/-- A frame at some depth is an outer one of the frames less deep. -/
theorem frames_at_depth {depth : Nat} (hframe : task.frames[depth]? = some frame) :
    task.frames = task.frames.take depth ++ frame :: task.frames.drop (depth + 1) := by
  obtain ⟨hlt, rfl⟩ := List.getElem?_eq_some_iff.1 hframe
  rw [List.getElem_cons_drop, List.take_append_drop]

/-- A frame that notices its token answers, and the frames inside of it give up their flights. -/
theorem worksAt_heeded {depth : Nat} {group : Group} (htask : c.tasks[number]? = some task)
    (hframe : task.frames[depth]? = some frame) (hgroup : c.groups[frame.group]? = some group)
    (hawaits : frame.stage.awaits = true)
    (hreframes : c.Reframes number following
      ({ frame with stage := .answered (.error .cancelled) } :: task.frames.drop (depth + 1)))
    (hgroups : following.groups = (c.abandon (task.frames.take (depth + 1))).groups) :
    WorksAt c (.heed number depth) following number (task.frames.drop (depth + 1)).length := by
  obtain ⟨after, hafter, halike⟩ := abandon_alike (task.frames.take (depth + 1)) hgroup
  refine hreframes.worksAt htask (frames_at_depth hframe) hgroup
    (.heeded depth after rfl hawaits halike) (fun index group hgroup ↦ ?_)
    (hgroups.trans (setIfInBounds_same hafter).symm)
  exact abandon_alike _ hgroup

/-- A frame whose connection breaks takes in the failure, and the frames inside of it give up their
flights. -/
theorem worksAt_brokeOff {depth flight : Nat} {reason peer : String} {group : Group}
    (htask : c.tasks[number]? = some task) (hframe : task.frames[depth + 1]? = some frame)
    (hstage : frame.stage = .leading flight (.fetching peer))
    (hgroup : (c.abandon (task.frames.take (depth + 1))).groups[frame.group]? = some group)
    (hreframes : c.Reframes number following
      ({ frame with
          stage :=
            .leading flight
              (group.takeFetched frame.key c.now
                (.error (.transportFailure peer reason))).1.errand } ::
        task.frames.drop (depth + 2)))
    (hgroups : following.groups =
      (c.abandon (task.frames.take (depth + 1))).groups.setIfInBounds frame.group
        (group.takeFetched frame.key c.now (.error (.transportFailure peer reason))).2) :
    WorksAt c (.breakOff number depth reason) following number
      (task.frames.drop (depth + 2)).length := by
  have hlt := (List.getElem?_eq_some_iff.1 hframe).1
  have hlength : task.frames.length = depth + (task.frames.drop (depth + 2)).length + 2 := by
    rw [List.length_drop]
    omega
  obtain ⟨before, flights, hbefore, rfl⟩ := group_of_abandon hgroup
  exact hreframes.worksAt htask (frames_at_depth hframe) hbefore
    (.brokeOff depth reason task flight peer { before with flights } rfl htask hframe hlength hstage
      ⟨rfl, rfl, rfl, rfl, rfl⟩)
    (fun _ _ hgroup ↦ abandon_alike _ hgroup) hgroups

/-- A move takes one frame to another stage, or it leaves the frames as they are and the groups as
well, except that one may be purged. -/
theorem Move.worker (move : Move c action following) (hgrouped : c.Grouped) :
    (∃ number height, WorksAt c action following number height) ∨
      Undisturbed c following (action.purges? = some ·) (fun _ _ ↦ False) ∧ c.Unfed action := by
  cases move with
  | turned number task frame outer group _ stage after following htask hframes hgroup hturn
      hreframes hgroups =>
      exact .inl ⟨number, _, hreframes.worksAt htask (show task.frames = [] ++ frame :: outer from
        hframes) hgroup (.turned task outer stage after htask hframes rfl hturn)
        (fun _ _ ↦ alike_of_getElem?) hgroups⟩
  | forwarded number task frame outer group served flight home peer sharesToken node target
      following htask hframes hgroup hstage hpeek hhome hpick hcarrier hroute hserved hreframes
      hgroups hevents =>
      exact .inl ⟨number, _, worksAt_forwarded
        ⟨⟨task, htask, hframes⟩, hgroup, ⟨flight, hstage⟩, hpeek, hhome⟩ hstage hpick hcarrier
        hroute hserved hreframes hgroups⟩
  | handed number task frame parent outer group outcome flight peer following htask hframes hstage
      hparent hgroup hreframes hgroups =>
      exact .inl ⟨number, _, hreframes.worksAt htask (show task.frames = [frame] ++ parent :: outer
        from hframes) hgroup (.handed task frame outer outcome flight peer rfl htask hframes rfl
          hstage hparent) (fun _ _ ↦ alike_of_getElem?) hgroups⟩
  | popped number task frame outer outcome following htask hframes hstage hreframes hgroups hsome
      hnone =>
      have hkept : following.groups = (c.abandon []).groups := hgroups
      have hsuffix : outer <:+ task.frames := hframes ▸ List.suffix_cons frame outer
      exact .inr ⟨hreframes.undisturbed_of_suffix htask hsuffix hkept,
        unfed_handing htask hframes hnone⟩
  | finished number task frame outcome following htask hframes hstage hretasks hgroups =>
      have hkept : following.groups = (c.abandon []).groups := hgroups
      exact .inr ⟨hretasks.undisturbed_of_suffix htask List.nil_suffix hkept,
        unfed_handing htask hframes fun _ _ _ _ heq ↦ nomatch heq⟩
  | heeded number depth task frame following htask hframe hcancelled hhears hawaits hreframes
      hgroups =>
      obtain ⟨group, hgroup⟩ := hgrouped number frame ⟨task, htask, List.mem_of_getElem? hframe⟩
      exact .inl ⟨number, _, worksAt_heeded htask hframe hgroup hawaits hreframes hgroups⟩
  | brokeOff number depth reason task frame flight peer group following htask hframe hstage hgroup
      hreframes hgroups =>
      exact .inl ⟨number, _, worksAt_brokeOff htask hframe hstage hgroup hreframes hgroups⟩
  | expired number task deadline following htask hpending hdeadline hdue hretasks hgroups =>
      exact .inr ⟨hretasks.undisturbed_of_suffix htask List.nil_suffix hgroups, unfed_of_fill? rfl⟩
  | dropped number task following htask hpending hretasks hgroups =>
      exact .inr ⟨hretasks.undisturbed_of_suffix htask List.nil_suffix hgroups, unfed_of_fill? rfl⟩
  | fired number =>
      have hretasks : c.Retasks number (c.cancel number) fun t ↦ { t with cancelled := true } :=
        ⟨rfl, rfl, rfl⟩
      exact .inr ⟨(hretasks.steady fun _ ↦ rfl).undisturbed fun _ _ hgroup _ ↦
        alike_of_getElem? hgroup, unfed_of_fill? rfl⟩
  | asked | responded =>
      exact .inr ⟨Steady.undisturbed (steady_of_push rfl) fun _ _ hgroup _ ↦
        alike_of_getElem? hgroup, unfed_of_fill? rfl⟩
  | requested node method path name key index group deadline hgroup =>
      exact .inr ⟨Steady.undisturbed (steady_of_push rfl) fun _ _ hfound _ ↦
        setIfInBounds_alike hfound hgroup ⟨rfl, rfl, rfl, rfl, rfl⟩, unfed_of_fill? rfl⟩
  | removed index key group hgroup =>
      exact .inr ⟨Steady.undisturbed (steady_of_eq rfl) fun _ _ hfound hother ↦
        alike_of_ne hfound fun heq ↦ hother (congrArg some heq.symm), unfed_of_fill? rfl⟩
  | cleared index group hgroup =>
      exact .inr ⟨Steady.undisturbed (steady_of_eq rfl) fun _ _ hfound hother ↦
        alike_of_ne hfound fun heq ↦ hother (congrArg some heq.symm), unfed_of_fill? rfl⟩
  | added =>
      exact .inr ⟨Steady.undisturbed (steady_of_eq rfl) fun _ _ hgroup _ ↦
        alike_of_getElem? hgroup, unfed_of_fill? rfl⟩
  | rewired _ node change hchange hrewires =>
      refine .inr ⟨Steady.undisturbed (steady_of_eq rfl) fun _ _ hgroup _ ↦
        alike_of_getElem? hgroup, unfed_of_fill? ?_⟩
      cases action with
      | join | create | removeGroup | changePeers | connect => rfl
      | _ => cases hrewires
  | created node name settings =>
      refine .inr ⟨Steady.undisturbed (steady_of_eq rfl) fun index group hgroup _ ↦
        ⟨group, ?_, .refl group⟩, unfed_of_fill? rfl⟩
      show (c.groups.push _)[index]? = some group
      rw [Array.getElem?_push, if_neg (Nat.ne_of_lt (Array.getElem?_eq_some_iff.1 hgroup).1),
        hgroup]
  | stayed _ _ hgroups htasks hnodes hidles =>
      refine .inr ⟨Steady.undisturbed (steady_of_eq htasks) fun _ _ hgroup _ ↦
        hgroups ▸ alike_of_getElem? hgroup, unfed_of_fill? ?_⟩
      cases action with
      | step number =>
          obtain ⟨task, frame, outer, flight, htask, hframes, hstage⟩ := hidles
          exact fill?_step htask hframes (by simp [hstage])
      | create | drop | advance => rfl
      | _ => cases hidles

/-- What a move does to one group: a frame on it works, or it holds what it did and the frames on it
stay as they are. -/
theorem Move.on_group (move : Move c action following) (hgrouped : c.Grouped) {group : Group}
    (hgroup : c.groups[index]? = some group) (hkeeps : action.purges? ≠ some index) :
    (∃ number height frame stage after, frame.group = index ∧ c.FrameAt number height frame ∧
      Works c action number height frame group stage after ∧
      following.FrameAt number height { frame with stage } ∧
      following.groups[index]? = some after) ∨
    (∃ after, following.groups[index]? = some after ∧ after.Alike group) ∧
      ∀ number height frame next, frame.group = index → c.FrameAt number height frame →
        following.FrameAt number height next → next = frame := by
  rcases move.worker hgrouped with ⟨number, height, frame, found, stage, after, hat, hfound, hworks,
    hnext, hafter, hspares⟩ | ⟨hspares, -⟩
  · by_cases hon : frame.group = index
    · subst hon
      cases hgroup.symm.trans hfound
      exact .inl ⟨number, height, frame, stage, after, rfl, hat, hworks, hnext, hafter⟩
    · refine .inr ⟨hspares.groups index group hgroup (Ne.symm hon), ?_⟩
      intro other place staying next hindex hstays hthere
      refine hspares.frames other place staying next hstays hthere ?_
      rintro ⟨rfl, rfl⟩
      exact hon (hat.unique hstays ▸ hindex)
  · exact .inr ⟨hspares.groups index group hgroup hkeeps, fun number height frame next _ hat hnext ↦
      hspares.frames number height frame next hat hnext id⟩

/-- In every cluster that a run leads to, every frame is on a group. -/
theorem Runs.grouped {allowed : Cluster → Action → Prop} (run : Runs allowed empty c) :
    c.Grouped := by
  obtain ⟨keys, goals, hsound⟩ := run.keyed
  rintro number frame ⟨task, htask, hmem⟩
  obtain ⟨group, hgroup, -⟩ := hsound.frames number task htask frame hmem
  exact ⟨group, hgroup⟩

end Cluster

end ReadThrough
