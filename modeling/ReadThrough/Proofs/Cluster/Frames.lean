import ReadThrough.Proofs.Cluster.Events
import ReadThrough.Proofs.Cluster.Verdicts
import ReadThrough.Proofs.Group.Contents

/-!
# Where the outcomes of frames come from

`Move.restacks` follows the frames of one task through a move, and `Move.passage` one frame, told
from the others of its task by its height: it stays as it is, has just begun, or passes to another
stage in one of a few ways. From these follows where a value comes from that a leader is done with,
that a frame is answered with, that a flight has landed with (`Move.lands`) or that a get ends with
(`Move.answers`).
-/

namespace ReadThrough

deriving instance DecidableEq for Errand, FrameStage, Frame, Answer

/-- An answer for a key that a group takes in, with the tier that a value goes to. -/
structure Fill where
  group : Nat
  key : String
  tier : Tier
  outcome : Outcome

namespace Cluster

/-- The answer that an action makes a group take in: of a loader, of an external peer, or of
another node, handed on by the frame there. -/
def fill? (c : Cluster) : Action → Option Fill
  | .answerLoad number answer => do
      let frame ← (← c.tasks[number]?).frames.head?
      some ⟨frame.group, frame.key, .main, LoadAnswer.outcome frame.key answer⟩
  | .answerFetch number answer => do
      let frame ← (← c.tasks[number]?).frames.head?
      some ⟨frame.group, frame.key, .hot, answer⟩
  | .step number => do
      match (← c.tasks[number]?).frames with
      | frame :: parent :: _ =>
          match frame.stage, parent.stage with
          | .answered outcome, .leading _ (.fetching _) =>
              some ⟨parent.group, parent.key, .hot, outcome⟩
          | _, _ => none
      | _ => none
  | _ => none

variable {c following : Cluster} {action : Action} {number index : Nat}

/-- An answer is taken in by a frame whose call has no answer yet. -/
theorem calls_of_fill? {fill : Fill} (hact : c.act? action = some following)
    (hfill : c.fill? action = some fill) :
    ∃ number frame, c.HasFrame number frame ∧ frame.Calls ∧ frame.group = fill.group ∧
      frame.key = fill.key := by
  cases action with
  | answerLoad number answer =>
      simp only [act?, answerLoad?, bind, Option.bind_eq_some_iff] at hact
      obtain ⟨task, htask, hact⟩ := hact
      split at hact
      · next frame outer hframes =>
        split at hact
        · next flight group hstage hgroup =>
          simp only [fill?, htask, hframes, bind, Option.bind_some, List.head?_cons,
            Option.some.injEq] at hfill
          subst hfill
          exact ⟨number, frame, ⟨task, htask, hframes ▸ List.mem_cons_self⟩, ⟨flight, .inl hstage⟩,
            rfl, rfl⟩
        · cases hact
      · cases hact
  | answerFetch number answer =>
      simp only [act?, answerFetch?, bind, Option.bind_eq_some_iff] at hact
      obtain ⟨task, htask, hact⟩ := hact
      split at hact
      · next frame outer hframes =>
        split at hact
        · next flight peer group hstage hgroup =>
          simp only [fill?, htask, hframes, bind, Option.bind_some, List.head?_cons,
            Option.some.injEq] at hfill
          subst hfill
          exact ⟨number, frame, ⟨task, htask, hframes ▸ List.mem_cons_self⟩,
            ⟨flight, .inr ⟨peer, hstage⟩⟩, rfl, rfl⟩
        · cases hact
      · cases hact
  | step number =>
      simp only [fill?, bind, Option.bind_eq_some_iff] at hfill
      obtain ⟨task, htask, hfill⟩ := hfill
      split at hfill
      · next frame parent rest hframes =>
        split at hfill
        · next outcome flight peer hstage hparent =>
          cases hfill
          refine ⟨number, parent, ⟨task, htask, ?_⟩, ⟨flight, .inr ⟨peer, hparent⟩⟩, rfl, rfl⟩
          exact hframes ▸ List.mem_cons_of_mem _ List.mem_cons_self
        · cases hfill
      · cases hfill
  | _ => cases hfill

/-! ## What flights come to -/

/-- A flight of a group has landed with an outcome. -/
def HasLanded (c : Cluster) (index flight : Nat) (outcome : Outcome) : Prop :=
  ∃ group, c.groups[index]? = some group ∧ group.flights.flights[flight]? = some (.landed outcome)

/-- A group that is put back with the flights that it had has landed what it had. -/
theorem HasLanded.of_kept {other flight : Nat} {group kept : Group} {outcome : Outcome}
    (h : following.HasLanded index flight outcome) (hgroup : c.groups[other]? = some group)
    (hgroups : following.groups = c.groups.setIfInBounds other kept)
    (hflights : kept.flights = group.flights) : c.HasLanded index flight outcome := by
  obtain ⟨after, hafter, hlanded⟩ := h
  rw [hgroups, Array.getElem?_setIfInBounds] at hafter
  split at hafter
  · next heq =>
    subst heq
    split at hafter
    · cases hafter
      exact ⟨group, hgroup, hflights ▸ hlanded⟩
    · cases hafter
  · exact ⟨after, hafter, hlanded⟩

/-- A flight that has landed after a move had landed before, or its leader was done. -/
theorem Move.lands (move : Move c action following) {flight : Nat} {outcome : Outcome}
    (h : following.HasLanded index flight outcome) :
    c.HasLanded index flight outcome ∨ ∃ number frame, c.HasFrame number frame ∧
      frame.group = index ∧ frame.stage = .leading flight (.done outcome) := by
  have ⟨after, hafter, hlanded⟩ := h
  have hsame : following.groups = c.groups → c.HasLanded index flight outcome :=
    fun hgroups ↦ ⟨after, hgroups ▸ hafter, hlanded⟩
  have habandoned : ∀ {frames : List Frame}, following.groups = (c.abandon frames).groups →
      c.HasLanded index flight outcome :=
    fun hgroups ↦ landed_abandon (hgroups ▸ hafter) hlanded
  cases move with
  | turned number task frame outer group _ stage new following htask hframes hgroup hturn
      hreframes hgroups =>
      rw [hgroups, Array.getElem?_setIfInBounds] at hafter
      split at hafter
      · next heq =>
        subst heq
        split at hafter
        · cases hafter
          rcases hturn.lands hlanded with hbefore | ⟨-, hstage⟩
          · exact .inl ⟨group, hgroup, hbefore⟩
          · exact .inr ⟨number, frame, ⟨task, htask, hframes ▸ List.mem_cons_self⟩, rfl, hstage⟩
        · cases hafter
      · exact .inl ⟨after, hafter, hlanded⟩
  | forwarded number task frame outer group served flight home peer sharesToken node target
      following htask hframes hgroup hstage hpeek hhome hpick hcarrier hroute hserved hreframes
      hgroups => exact .inl (h.of_kept hserved hgroups rfl)
  | handed number task frame parent outer group answer flight peer following htask hframes
      hstage hparent hgroup hreframes hgroups =>
      have hkept := group.takeFetched_kept parent.key c.now answer
      exact .inl (h.of_kept hgroup hgroups hkept.flights)
  | popped number task frame outer answer following htask hframes hstage hreframes hgroups =>
      exact .inl (hsame hgroups)
  | finished number task frame answer following htask hframes hstage hretasks hgroups =>
      exact .inl (hsame hgroups)
  | heeded number depth task frame following htask hframe hcancelled hhears hawaits hreframes
      hgroups => exact .inl (habandoned hgroups)
  | brokeOff number depth reason task frame flight peer group following htask hframe hstage hgroup
      hreframes hgroups =>
      have hkept := group.takeFetched_kept frame.key c.now (.error (.transportFailure peer reason))
      obtain ⟨left, hleft, hlanded⟩ := h.of_kept hgroup hgroups hkept.flights
      exact .inl (landed_abandon hleft hlanded)
  | expired number task deadline following htask hpending hdeadline hdue hretasks hgroups =>
      exact .inl (habandoned hgroups)
  | dropped number task following htask hpending hretasks hgroups => exact .inl (habandoned hgroups)
  | requested node method path name key other group deadline hgroup =>
      exact .inl (h.of_kept hgroup rfl rfl)
  | removed other key group hgroup => exact .inl (h.of_kept hgroup rfl rfl)
  | cleared other group hgroup => exact .inl (h.of_kept hgroup rfl rfl)
  | created node name settings =>
      rcases cases_push hafter with rfl | hold
      · simp [Group.create, FlightTable.empty] at hlanded
      · exact .inl ⟨after, hold, hlanded⟩
  | stayed _ _ hgroups htasks hnodes => exact .inl (hsame hgroups)
  | fired | asked | responded | added | rewired => exact .inl (hsame rfl)

/-! ## Where frames come from -/

/-- A frame of a task that a number of frames lie outside of. -/
def FrameAt (c : Cluster) (number height : Nat) (frame : Frame) : Prop :=
  ∃ task outer, c.tasks[number]? = some task ∧ frame :: outer <:+ task.frames ∧
    outer.length = height

/-- A frame lies outside of those before it in the list. -/
theorem suffix_of_getElem? {frames : List Frame} {depth : Nat} {frame : Frame}
    (h : frames[depth]? = some frame) : frame :: frames.drop (depth + 1) <:+ frames := by
  obtain ⟨hlt, rfl⟩ := List.getElem?_eq_some_iff.1 h
  rw [← List.drop_eq_getElem_cons hlt]
  exact List.drop_suffix depth frames

theorem FrameAt.hasFrame {height : Nat} {frame : Frame} (h : c.FrameAt number height frame) :
    c.HasFrame number frame := by
  obtain ⟨task, outer, htask, hsuffix, -⟩ := h
  exact ⟨task, htask, hsuffix.subset List.mem_cons_self⟩

/-- A task has one frame at each height. -/
theorem FrameAt.unique {height : Nat} {frame other : Frame} (h : c.FrameAt number height frame)
    (h' : c.FrameAt number height other) : frame = other := by
  obtain ⟨task, outer, htask, hsuffix, rfl⟩ := h
  obtain ⟨found, rest, hfound, hsuffix', hlength⟩ := h'
  rw [htask] at hfound
  cases hfound
  have hwithin := List.suffix_of_suffix_length_le hsuffix hsuffix' (by simp [hlength])
  exact (List.cons.inj (hwithin.eq_of_length (by simp [hlength]))).1

theorem HasFrame.exists_frameAt {frame : Frame} (h : c.HasFrame number frame) :
    ∃ height, c.FrameAt number height frame := by
  obtain ⟨task, htask, hmem⟩ := h
  obtain ⟨inner, outer, hframes⟩ := List.append_of_mem hmem
  exact ⟨outer.length, task, outer, htask, ⟨inner, hframes.symm⟩, rfl⟩

/-- How a move takes a frame to another stage: by a turn, by a fetch that is forwarded or comes to
an end, or because the frame notices its token. A value that ends a fetch is taken in. -/
inductive Passage (c : Cluster) (action : Action) (number : Nat) (before : Frame) :
    FrameStage → Prop where
  | turned (task : Task) (group after : Group) (stage : FrameStage) :
      c.tasks[number]? = some task → task.frames.head? = some before →
      c.groups[before.group]? = some group →
      Turn c number task before group action stage after →
      Passage c action number before stage
  | forwarded (group : Group) (flight : Nat) (node : Node) (peer : String) :
      c.groups[before.group]? = some group → before.stage = .leading flight .recheck →
      group.cache.peek before.key c.now = none → c.nodes[before.node]? = some node →
      node.membership.pick before.key = .peer peer →
      Passage c action number before (.leading flight (.fetching peer))
  | fetched (group : Group) (flight : Nat) (peer : String) (answer : Outcome) :
      before.stage = .leading flight (.fetching peer) →
      (∀ value, answer = .ok value →
        c.fill? action = some ⟨before.group, before.key, .hot, .ok value⟩) →
      Passage c action number before
        (.leading flight (group.takeFetched before.key c.now answer).1.errand)
  | heeded : Passage c action number before (.answered (.error .cancelled))

/-- How a move changes the frames of a task: the inner ones go away, one of them passes to another
stage and those inside of it go away, or the innermost one forwards its key to another node. -/
inductive Restacked (c : Cluster) (action : Action) (following : Cluster) (number : Nat)
    (old : List Frame) : List Frame → Prop where
  | left (new : List Frame) : new <:+ old → Restacked c action following number old new
  | restaged (frame : Frame) (outer : List Frame) (stage : FrameStage) :
      frame :: outer <:+ old → Passage c action number frame stage →
      Restacked c action following number old ({ frame with stage } :: outer)
  | forwarded (frame : Frame) (outer : List Frame) (group served : Group) (flight : Nat)
      (home : Node) (peer : String) (sharesToken : Bool) (node target : Nat) :
      old = frame :: outer → c.Misses number frame outer group home →
      frame.stage = .leading flight .recheck → home.membership.pick frame.key = .peer peer →
      home.carrier = .network sharesToken → c.route peer group.name = .ok (node, target) →
      c.groups[target]? = some served →
      following.events = c.events.push (.fetch home.id peer group.name frame.key) →
      Restacked c action following number old
        ({ node, group := target, key := frame.key
           hearsToken := sharesToken && frame.hearsToken, stage := .asked } ::
          { frame with stage := .leading flight (.fetching peer) } :: outer)

/-- How the frame of a new task begins: for a get, or for a request to a group that is
registered. -/
inductive Begins (c : Cluster) : Action → Frame → Prop where
  | asked (node index : Nat) (key : String) (hearsToken cancelled : Bool)
      (timeout : Option Millis) (group : Group) :
      c.groups[index]? = some group →
      Begins c (.get node index key hearsToken cancelled timeout)
        { node, group := index, key, hearsToken, stage := .asked }
  | requested (node : Nat) (method path name key : String) (index : Nat) (group : Group) :
      c.groups[index]? = some group → c.group? node name = some index →
      Begins c (.serve node method path)
        { node, group := index, key, hearsToken := false, stage := .asked }

theorem Begins.stage {frame : Frame} (h : c.Begins action frame) : frame.stage = .asked := by
  cases h <;> rfl

/-- Where the frames of a task come from: from those that it had before, or it is a new one. -/
def Stacks (c : Cluster) (action : Action) (following : Cluster) (number : Nat)
    (frames : List Frame) : Prop :=
  (∃ before, c.tasks[number]? = some before ∧
    Restacked c action following number before.frames frames) ∨
  c.tasks.size ≤ number ∧ (frames = [] ∨ ∃ frame, frames = [frame] ∧ c.Begins action frame)

/-- Where the frames of one task have changed, the others are there as before. -/
theorem Retasks.stacks {mover : Nat} {change : Task → Task} {found task : Task}
    (h : c.Retasks mover following change) (hfound : c.tasks[mover]? = some found)
    (hrestacked : Restacked c action following mover found.frames (change found).frames)
    (htask : following.tasks[number]? = some task) :
    Stacks c action following number task.frames := by
  rcases h.cases htask with hold | ⟨rfl, other, hother, rfl⟩
  · exact .inl ⟨task, hold, .left _ List.suffix_rfl⟩
  · rw [hfound] at hother
    cases hother
    exact .inl ⟨found, hfound, hrestacked⟩

/-- Where a task begins, the others are there as before. -/
theorem stacks_push {new task : Task}
    (hnew : new.frames = [] ∨ ∃ frame, new.frames = [frame] ∧ c.Begins action frame)
    (htask : (c.tasks.push new)[number]? = some task) :
    Stacks c action following number task.frames := by
  rw [Array.getElem?_push] at htask
  split at htask
  · next heq =>
    cases htask
    exact .inr ⟨Nat.le_of_eq heq.symm, hnew⟩
  · exact .inl ⟨task, htask, .left _ List.suffix_rfl⟩

/-- The frames of every task that a move leaves come from what was there before. -/
theorem Move.restacks (move : Move c action following) {task : Task}
    (htask : following.tasks[number]? = some task) :
    Stacks c action following number task.frames := by
  have hsame (hsame : c.tasks[number]? = some task) :
      Stacks c action following number task.frames := .inl ⟨task, hsame, .left _ List.suffix_rfl⟩
  cases move with
  | turned mover found moved rest group _ stage after following hfound hframes hgroup hturn
      hreframes hgroups =>
      refine hreframes.stacks hfound (.restaged moved rest stage ?_ ?_) htask
      · exact hframes ▸ List.suffix_rfl
      · exact .turned found group after stage hfound (by rw [hframes, List.head?_cons]) hgroup hturn
  | forwarded mover found moved rest group served flight home peer sharesToken node target
      following hfound hframes hgroup hstage hpeek hhome hpick hcarrier hroute hserved hreframes
      hgroups hevents =>
      exact hreframes.stacks hfound (.forwarded moved rest group served flight home peer sharesToken
        node target hframes ⟨⟨found, hfound, hframes⟩, hgroup, ⟨flight, hstage⟩, hpeek, hhome⟩
        hstage hpick hcarrier hroute hserved hevents) htask
  | handed mover found moved parent rest group outcome flight peer following hfound hframes
      hstage hparent hgroup hreframes hgroups =>
      refine hreframes.stacks hfound (.restaged parent rest _ ?_ ?_) htask
      · rw [hframes]
        exact List.suffix_cons _ _
      · refine .fetched group flight peer outcome hparent ?_
        rintro value rfl
        simp [fill?, hfound, hframes, hstage, hparent]
  | popped mover found moved rest outcome following hfound hframes hstage hreframes hgroups =>
      refine hreframes.stacks hfound (.left _ ?_) htask
      exact hframes ▸ List.suffix_cons _ _
  | finished mover found moved outcome following hfound hframes hstage hretasks hgroups =>
      exact hretasks.stacks hfound (.left _ List.nil_suffix) htask
  | heeded mover depth found moved following hfound hat hcancelled hhears hawaits hreframes
      hgroups =>
      exact hreframes.stacks hfound (.restaged moved _ _ (suffix_of_getElem? hat) .heeded) htask
  | brokeOff mover depth reason found moved flight peer group following hfound hat hstage hgroup
      hreframes hgroups =>
      refine hreframes.stacks hfound (.restaged moved _ _ (suffix_of_getElem? hat) ?_) htask
      exact .fetched group flight peer _ hstage fun _ heq ↦ nomatch heq
  | expired mover found deadline following hfound hpending hdeadline hdue hretasks hgroups =>
      exact hretasks.stacks hfound (.left _ List.nil_suffix) htask
  | dropped mover found following hfound hpending hretasks hgroups =>
      exact hretasks.stacks hfound (.left _ List.nil_suffix) htask
  | fired mover =>
      have hretasks : c.Retasks mover (c.cancel mover) fun t ↦ { t with cancelled := true } :=
        ⟨rfl, rfl, rfl⟩
      rcases hretasks.cases htask with hold | ⟨rfl, found, hfound, rfl⟩
      · exact hsame hold
      · exact .inl ⟨found, hfound, .left _ List.suffix_rfl⟩
  | asked node index key hearsToken cancelled timeout group hgroup =>
      exact stacks_push
        (.inr ⟨_, rfl, .asked node index key hearsToken cancelled timeout group hgroup⟩) htask
  | requested node method path name key index group deadline hgroup hindex =>
      exact stacks_push
        (.inr ⟨_, rfl, .requested node method path name key index group hgroup hindex⟩) htask
  | responded => exact stacks_push (.inl rfl) htask
  | stayed _ _ hgroups htasks hnodes => exact hsame (htasks ▸ htask)
  | removed | cleared | added | created | rewired => exact hsame htask

/-- A frame that is there after a move was there before, at the same height, or was taken to its
stage by the move; or it has just begun, in a new task or inside of another frame. -/
def Comes (c : Cluster) (action : Action) (number height : Nat) (frame : Frame) : Prop :=
  c.FrameAt number height frame ∨ frame.stage = .asked ∧ (number < c.tasks.size → 0 < height) ∨
    ∃ before stage, c.FrameAt number height before ∧ frame = { before with stage } ∧
      Passage c action number before stage

/-- Every frame that a move leaves comes from what was there before. -/
theorem Move.passage (move : Move c action following) {height : Nat} {frame : Frame}
    (hframe : following.FrameAt number height frame) : Comes c action number height frame := by
  obtain ⟨task, outer, htask, hsuffix, rfl⟩ := hframe
  rcases move.restacks htask with ⟨before, hbefore, hrestacked⟩ | ⟨hnew, hframes⟩
  · have hold {frames : List Frame} (hthere : frame :: outer <:+ frames)
        (hwithin : frames <:+ before.frames) : Comes c action number outer.length frame :=
      .inl ⟨before, outer, hbefore, hthere.trans hwithin, rfl⟩
    -- a frame that passed to its stage is the first one, or lies outside of that
    have hpassed {moved : Frame} {rest : List Frame} {stage : FrameStage}
        (hthere : frame :: outer <:+ { moved with stage } :: rest)
        (hwithin : moved :: rest <:+ before.frames)
        (hpassage : Passage c action number moved stage) :
        Comes c action number outer.length frame := by
      rcases List.suffix_cons_iff.1 hthere with heq | hthere
      · cases heq
        exact .inr (.inr ⟨moved, stage, ⟨before, outer, hbefore, hwithin, rfl⟩, rfl, hpassage⟩)
      · exact hold hthere ((List.suffix_cons _ _).trans hwithin)
    generalize hnewFrames : task.frames = frames at hsuffix hrestacked
    cases hrestacked with
    | left _ hleft => exact hold hsuffix hleft
    | restaged moved rest stage hwithin hpassage => exact hpassed hsuffix hwithin hpassage
    | forwarded moved rest group served flight home peer sharesToken node target hframes hmisses
        hstage hpick =>
        rcases List.suffix_cons_iff.1 hsuffix with heq | hsuffix
        · cases heq
          exact .inr (.inl ⟨rfl, fun _ ↦ Nat.succ_pos _⟩)
        · exact hpassed hsuffix (hframes ▸ List.suffix_rfl)
            (.forwarded group flight home peer hmisses.served hstage hmisses.peek hmisses.home
              hpick)
  · rcases hframes with hnone | ⟨first, hfirst, hbegins⟩
    · rw [hnone] at hsuffix
      cases List.suffix_nil.1 hsuffix
    · rw [hfirst] at hsuffix
      obtain rfl := List.mem_singleton.1 (hsuffix.subset List.mem_cons_self)
      exact .inr (.inl ⟨hbegins.stage, fun hlt ↦ absurd hlt (Nat.not_lt.2 hnew)⟩)

/-- A frame that is at another stage after a move was taken to it. -/
theorem Move.passes (move : Move c action following) {height : Nat} {frame : Frame}
    {stage : FrameStage} (hbefore : c.FrameAt number height frame)
    (hafter : following.FrameAt number height { frame with stage }) (hmoved : frame.stage ≠ stage)
    (hbusy : stage ≠ .asked) : Passage c action number frame stage := by
  rcases move.passage hafter with hold | ⟨hasked, -⟩ | ⟨before, new, hat, heq, hpassage⟩
  · exact absurd (congrArg Frame.stage (hbefore.unique hold)) hmoved
  · exact absurd hasked hbusy
  · obtain rfl := hbefore.unique hat
    obtain rfl : stage = new := congrArg Frame.stage heq
    exact hpassage

/-- How two frames come to be next to each other in a task: they were before, the inner one at some
stage, or the outer one has just forwarded its key to a new inner one. -/
inductive Adjoins (c : Cluster) (following : Cluster) (number : Nat) (rest : List Frame) :
    Frame → Frame → Prop where
  | kept (task : Task) (inner outer : Frame) (stage : FrameStage) :
      c.tasks[number]? = some task → inner :: outer :: rest <:+ task.frames →
      Adjoins c following number rest { inner with stage } outer
  | forwarded (frame : Frame) (group served : Group) (flight : Nat) (home : Node) (peer : String)
      (sharesToken : Bool) (node target : Nat) :
      c.Misses number frame rest group home → home.membership.pick frame.key = .peer peer →
      c.route peer group.name = .ok (node, target) → c.groups[target]? = some served →
      following.events = c.events.push (.fetch home.id peer group.name frame.key) →
      Adjoins c following number rest
        { node, group := target, key := frame.key
          hearsToken := sharesToken && frame.hearsToken, stage := .asked }
        { frame with stage := .leading flight (.fetching peer) }

/-- Frames that are next to each other after a move were so before, or have just come to be. -/
theorem Move.adjoins (move : Move c action following) {task : Task} {inner outer : Frame}
    {rest : List Frame} (htask : following.tasks[number]? = some task)
    (hframes : inner :: outer :: rest <:+ task.frames) :
    Adjoins c following number rest inner outer := by
  rcases move.restacks htask with ⟨before, hbefore, hrestacked⟩ | ⟨-, hnone | ⟨frame, hone, -⟩⟩
  · have hkept (hwithin : inner :: outer :: rest <:+ before.frames) :
        Adjoins c following number rest inner outer :=
      .kept before inner outer inner.stage hbefore hwithin
    generalize hnewFrames : task.frames = frames at hframes hrestacked
    cases hrestacked with
    | left _ hleft => exact hkept (hframes.trans hleft)
    | restaged frame outside stage hwithin hpassage =>
        rcases List.suffix_cons_iff.1 hframes with heq | hframes
        · cases heq
          exact .kept before frame outer stage hbefore hwithin
        · exact hkept (hframes.trans ((List.suffix_cons _ _).trans hwithin))
    | forwarded frame outside group served flight home peer sharesToken node target hold hmisses
        hstage hpick hcarrier hroute hserved hevents =>
        rcases List.suffix_cons_iff.1 hframes with heq | hframes
        · cases heq
          exact .forwarded frame group served flight home peer sharesToken node target hmisses hpick
            hroute hserved hevents
        · rcases List.suffix_cons_iff.1 hframes with heq | hframes
          · cases heq
            exact .kept before frame outer _ hbefore (hold ▸ List.suffix_rfl)
          · exact hkept (hframes.trans (hold ▸ List.suffix_cons _ _))
  · rw [hnone] at hframes
    cases List.suffix_nil.1 hframes
  · rw [hone] at hframes
    exact absurd hframes.length_le (by simp)

/-- How a move takes a frame to another stage, the fetch of a key that came to an end aside. -/
inductive Restages (c : Cluster) (action : Action) (number : Nat) (before : Frame) :
    FrameStage → Prop where
  | turned (task : Task) (group after : Group) (stage : FrameStage) :
      c.tasks[number]? = some task → task.frames.head? = some before →
      c.groups[before.group]? = some group →
      Turn c number task before group action stage after →
      Restages c action number before stage
  | forwarded (group : Group) (flight : Nat) (peer : String) :
      c.groups[before.group]? = some group → before.stage = .leading flight .recheck →
      group.cache.peek before.key c.now = none →
      Restages c action number before (.leading flight (.fetching peer))
  | fetched (flight : Nat) (peer : String) (taken : Group.Fetched) :
      before.stage = .leading flight (.fetching peer) →
      Restages c action number before (.leading flight taken.errand)
  | heeded : Restages c action number before (.answered (.error .cancelled))

/-- A frame that is there after a move was there before, has just begun, or was taken to its stage
by the move. -/
theorem Move.frames (move : Move c action following) {frame : Frame}
    (hframe : following.HasFrame number frame) :
    c.HasFrame number frame ∨ frame.stage = .asked ∨
      ∃ before stage, c.HasFrame number before ∧ frame = { before with stage } ∧
        Restages c action number before stage := by
  obtain ⟨height, hat⟩ := hframe.exists_frameAt
  rcases move.passage hat with hold | ⟨hasked, -⟩ | ⟨before, stage, hbefore, heq, hpassage⟩
  · exact .inl hold.hasFrame
  · exact .inr (.inl hasked)
  · refine .inr (.inr ⟨before, stage, hbefore.hasFrame, heq, ?_⟩)
    cases hpassage with
    | turned task group after _ htask hhead hgroup hturn =>
        exact .turned task group after stage htask hhead hgroup hturn
    | forwarded group flight node peer hgroup hstage hpeek =>
        exact .forwarded group flight peer hgroup hstage hpeek
    | fetched group flight peer answer hstage => exact .fetched flight peer _ hstage
    | heeded => exact .heeded

/-- A tier of a group has an entry of a key with a value. -/
def HasEntry (c : Cluster) (index : Nat) (key : String) (value : Value) : Prop :=
  ∃ group tier, c.groups[index]? = some group ∧ ⟨key, value⟩ ∈ group.cache.entries tier

instance (c : Cluster) (index : Nat) (key : String) (value : Value) :
    Decidable (c.HasEntry index key value) :=
  decidable_of_iff
    (∃ group ∈ c.groups[index]?, ⟨key, value⟩ ∈ group.cache.entries .main ∨
      ⟨key, value⟩ ∈ group.cache.entries .hot)
    (by
      constructor
      · rintro ⟨group, hgroup, hmain | hhot⟩
        · exact ⟨group, .main, hgroup, hmain⟩
        · exact ⟨group, .hot, hgroup, hhot⟩
      · rintro ⟨group, tier, hgroup, hmem⟩
        cases tier with
        | main => exact ⟨group, hgroup, .inl hmem⟩
        | hot => exact ⟨group, hgroup, .inr hmem⟩)

section

variable {before : Frame} {stage : FrameStage} {flight : Nat} {value : Value}

/-- A leader comes to be done with a value that is in a tier, or is taken in. -/
theorem Passage.done (h : Passage c action number before stage)
    (hstage : stage = .leading flight (.done (.ok value))) :
    c.HasEntry before.group before.key value ∨
      ∃ tier, c.fill? action = some ⟨before.group, before.key, tier, .ok value⟩ := by
  cases h with
  | turned task group after _ htask hhead hgroup hturn =>
      cases hturn with
      | found landing seen tier hleads hpeek =>
          cases hstage
          obtain ⟨tier, hmem⟩ := (Tiered.holds_of_peek hpeek).exists_entry
          exact .inl ⟨group, tier, hgroup, hmem⟩
      | refused landing node peer sharesToken fault hleads =>
          cases Group.eq_ok_of_takeFetched
            (Group.Fetched.eq_of_errand (FrameStage.leading.inj hstage).2)
      | loaded landing answer hleads =>
          have houtcome := Errand.done.inj (FrameStage.leading.inj hstage).2
          rw [group.takeLoaded_outcome] at houtcome
          refine .inr ⟨.main, ?_⟩
          simp [fill?, htask, hhead, houtcome]
      | fetched landing peer answer hleads =>
          obtain rfl := Group.eq_ok_of_takeFetched
            (Group.Fetched.eq_of_errand (FrameStage.leading.inj hstage).2)
          refine .inr ⟨.hot, ?_⟩
          simp [fill?, htask, hhead]
      | _ => cases hstage
  | forwarded => cases hstage
  | fetched group landing peer answer hleads hfill =>
      have hok := Group.eq_ok_of_takeFetched
        (Group.Fetched.eq_of_errand (FrameStage.leading.inj hstage).2)
      exact .inr ⟨.hot, hfill value hok⟩
  | heeded => cases hstage

/-- A frame comes to be answered with a value that is in a tier, or with which the flight that it
waits on has landed, or that it is done with. -/
theorem Passage.answered (h : Passage c action number before stage)
    (hstage : stage = .answered (.ok value)) :
    c.HasEntry before.group before.key value ∨
      (∃ flight, before.stage = .waiting flight ∧ c.HasLanded before.group flight (.ok value)) ∨
      ∃ flight, before.stage = .leading flight (.done (.ok value)) := by
  cases h with
  | turned task group after _ htask hhead hgroup hturn =>
      cases hturn with
      | answered outcome after hasked hconsult =>
          cases hstage
          obtain ⟨tier, hmem, -⟩ := Group.live_of_consult hconsult
          exact .inl ⟨group, tier, hgroup, hmem⟩
      | took flight outcome hwaits hlanded =>
          cases hstage
          exact .inr (.inl ⟨flight, hwaits, group, hgroup, hlanded⟩)
      | landed flight outcome hleads =>
          cases hstage
          exact .inr (.inr ⟨flight, hleads⟩)
      | _ => cases hstage
  | forwarded => cases hstage
  | fetched => cases hstage
  | heeded => cases hstage

/-- A frame comes to wait on the flight that its key has on record. -/
theorem Passage.waiting (h : Passage c action number before stage)
    (hstage : stage = .waiting flight) :
    ∃ group, c.groups[before.group]? = some group ∧
      (before.key, flight) ∈ group.flights.records := by
  cases h with
  | turned task group after _ htask hhead hgroup hturn =>
      cases hturn with
      | joined flight hcontends hrecord =>
          cases hstage
          exact ⟨group, hgroup, hrecord⟩
      | _ => cases hstage
  | forwarded => cases hstage
  | fetched => cases hstage
  | heeded => cases hstage

end

/-- A frame that comes to fetch does so from the peer that its node picks. -/
theorem Passage.fetching {before : Frame} {stage : FrameStage} {flight : Nat} {peer : String}
    (h : Passage c action number before stage) (hstage : stage = .leading flight (.fetching peer)) :
    ∃ node, c.nodes[before.node]? = some node ∧ node.membership.pick before.key = .peer peer := by
  have hno {taken : Group.Fetched} {landing : Nat}
      (heq : FrameStage.leading landing taken.errand = .leading flight (.fetching peer)) :
      False := by
    cases taken <;> cases heq
  cases h with
  | turned task group after _ htask hhead hgroup hturn =>
      cases hturn with
      | fetches landing node other hleads hpeek hnode hpick =>
          cases hstage
          exact ⟨node, hnode, hpick⟩
      | refused => exact (hno hstage).elim
      | fetched => exact (hno hstage).elim
      | _ => cases hstage
  | forwarded group landing node other hgroup hleads hpeek hnode hpick =>
      cases hstage
      exact ⟨node, hnode, hpick⟩
  | fetched => exact (hno hstage).elim
  | heeded => cases hstage

/-- An answer that a task has after a move it had before; or it is for what its outermost frame came
to, or for a cancellation because its time is up; or it was given at once. -/
theorem Move.answered (move : Move c action following) {answer : Answer}
    (hanswer : following.answer? number = some answer) :
    c.answer? number = some answer ∨
      (∃ task outcome, c.tasks[number]? = some task ∧ answer = task.purpose.answer c.now outcome ∧
        (outcome = .error .cancelled ∨
          ∃ frame, c.FrameAt number 0 frame ∧ frame.stage = .answered outcome)) ∨
      ∃ response, number = c.tasks.size ∧ answer = .served response := by
  obtain ⟨task, htask, hgot⟩ := Option.bind_eq_some_iff.1 hanswer
  have hthere : ∀ {found : Task}, c.tasks[number]? = some found →
      found.answer = some answer → c.answer? number = some answer :=
    fun hfound hgot ↦ Option.bind_eq_some_iff.2 ⟨_, hfound, hgot⟩
  have hkept : ∀ {mover : Nat} {change : Task → Task}, c.Retasks mover following change →
      (∀ found, (change found).answer = found.answer) → c.answer? number = some answer := by
    intro mover change hretasks hchange
    rcases hretasks.cases htask with hold | ⟨rfl, found, hfound, rfl⟩
    · exact hthere hold hgot
    · exact hthere hfound ((hchange found).symm.trans hgot)
  have hpushed : ∀ {new : Task}, following.tasks = c.tasks.push new → new.answer = none →
      c.answer? number = some answer := by
    intro new htasks hnew
    rcases cases_push (htasks ▸ htask) with rfl | hold
    · cases hnew.symm.trans hgot
    · exact hthere hold hgot
  cases move
  case finished mover found frame outcome hfound hframes hstage hretasks hgroups =>
    rcases hretasks.cases htask with hold | ⟨rfl, before, hbefore, rfl⟩
    · exact .inl (hthere hold hgot)
    · exact .inr (.inl ⟨found, outcome, hfound, (Option.some.inj hgot).symm,
        .inr ⟨frame, ⟨found, [], hfound, hframes ▸ List.suffix_rfl, rfl⟩, hstage⟩⟩)
  case expired mover found deadline hfound hpending hdeadline hdue hretasks hgroups =>
    rcases hretasks.cases htask with hold | ⟨rfl, before, hbefore, rfl⟩
    · exact .inl (hthere hold hgot)
    · exact .inr (.inl ⟨found, _, hfound, (Option.some.inj hgot).symm, .inl rfl⟩)
  case fired mover =>
    have hretasks : c.Retasks mover (c.cancel mover) fun t ↦ { t with cancelled := true } :=
      ⟨rfl, rfl, rfl⟩
    exact .inl (hkept hretasks fun _ ↦ rfl)
  case asked => exact .inl (hpushed rfl rfl)
  case requested => exact .inl (hpushed rfl rfl)
  case responded node method path response =>
    replace htask : (c.tasks.push _)[number]? = some task := htask
    rw [Array.getElem?_push] at htask
    split at htask
    · next heq =>
      cases htask
      exact .inr (.inr ⟨response, heq, (Option.some.inj hgot).symm⟩)
    · exact .inl (hthere htask hgot)
  case removed | cleared | added | created | rewired => exact .inl (hthere htask hgot)
  case stayed hgroups htasks hnodes => exact .inl (hthere (htasks ▸ htask) hgot)
  all_goals
    refine .inl (hkept (by assumption) fun _ ↦ ?_)
    rfl

/-- A get that has a value for its answer after a move had it before, or its outermost frame came to
it. -/
theorem Move.answers (move : Move c action following) {value : Value}
    (hanswer : following.answer? number = some (.got (.ok value))) :
    c.answer? number = some (.got (.ok value)) ∨
      ∃ frame, c.FrameAt number 0 frame ∧ frame.stage = .answered (.ok value) := by
  rcases move.answered hanswer with hold | ⟨task, outcome, htask, hgot, hcomes⟩ | ⟨_, _, hserved⟩
  · exact .inl hold
  · obtain ⟨-, rfl⟩ := Purpose.eq_of_answer hgot.symm
    exact .inr (hcomes.resolve_left (nomatch ·))
  · cases hserved

end Cluster

end ReadThrough
