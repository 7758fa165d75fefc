import ReadThrough.Proofs.Cluster.Frames
import ReadThrough.Proofs.Group.Counts

/-!
# Counting frames

`census` counts the frames on a group that are at a stage of some kind, and `Move.books` says what a
move does to a group and to these counts: it leaves both alone but for frames that are given up, it
takes one frame on the group to another stage, or it takes a key out. With it go the gets that the
group refuses and the entries that are inserted.
-/

namespace ReadThrough

theorem countP_cons_toNat {α : Type} (p : α → Bool) (item : α) (rest : List α) :
    (item :: rest).countP p = rest.countP p + (p item).toNat := by
  rw [List.countP_cons]
  cases p item <;> rfl

/-- How many of some frames are on a group, at a stage of a kind. -/
def tally (index : Nat) (kind : FrameStage → Bool) (frames : List Frame) : Nat :=
  frames.countP fun frame ↦ frame.group = index && kind frame.stage

/-- A kind of stages that frames are at neither when they begin nor when they end, and that a fetch
is of if the look at the tiers before it is. -/
structure Passing (kind : FrameStage → Bool) : Prop where
  asked : kind .asked = false
  answered : ∀ outcome, kind (.answered outcome) = false
  fetching : ∀ flight peer,
    kind (.leading flight (.fetching peer)) = kind (.leading flight .recheck)

section

variable {index : Nat} {kind : FrameStage → Bool}

@[simp] theorem tally_nil : tally index kind [] = 0 := rfl

@[simp] theorem tally_cons (frame : Frame) (rest : List Frame) :
    tally index kind (frame :: rest) =
      tally index kind rest + (decide (frame.group = index) && kind frame.stage).toNat :=
  countP_cons_toNat _ frame rest

@[simp] theorem tally_append (first second : List Frame) :
    tally index kind (first ++ second) = tally index kind first + tally index kind second :=
  List.countP_append

end

namespace Group

/-- A group that differs from another one at most in its flights and the requests it served, and led
and joined as many flights. -/
structure Rests (after group : Group) : Prop where
  cache : after.cache = group.cache
  settings : after.settings = group.settings
  gate : after.gate = group.gate
  counts : ∃ requests, after.counts = { group.counts with serverRequests := requests }
  executions : after.flights.executions = group.flights.executions
  waits : after.flights.waits = group.flights.waits

theorem Rests.refl (group : Group) : group.Rests group :=
  ⟨rfl, rfl, rfl, ⟨_, rfl⟩, rfl, rfl⟩

/-- A group at rest stays in balance. -/
theorem Rests.balanced {after group : Group} {refused inserted : Nat} (h : after.Rests group)
    (hbalanced : group.Balanced refused inserted) : after.Balanced refused inserted := by
  obtain ⟨requests, hcounts⟩ := h.counts
  exact hbalanced.congr h.cache h.settings (by simp [hcounts]) (by simp [hcounts])

/-- What comes in is inserted into a group at rest as before. -/
theorem Rests.inserts {after group : Group} (h : after.Rests group) (key : String) (tier : Tier)
    (outcome : Outcome) : after.inserts key tier outcome = group.inserts key tier outcome := by
  cases outcome with
  | ok value => simp only [Group.inserts, h.cache, h.gate]
  | error fault => rfl

theorem rests_recordServerRequest (group : Group) : group.recordServerRequest.Rests group :=
  ⟨rfl, rfl, rfl, ⟨_, rfl⟩, rfl, rfl⟩

end Group

namespace Cluster

/-- How many frames of a cluster are on a group, at a stage of a kind. -/
def census (c : Cluster) (index : Nat) (kind : FrameStage → Bool) : Nat :=
  (c.tasks.toList.map fun task ↦ tally index kind task.frames).sum

/-- Whether an action makes a group refuse a get, because its token has fired. -/
def refuses (c : Cluster) (index : Nat) : Action → Bool
  | .step number =>
      (c.tasks[number]?).any fun task ↦ task.frames.head?.any fun frame ↦
        frame.group = index && frame.stage = .asked && frame.hearsToken && task.cancelled
  | _ => false

/-- Whether an action inserts an entry into a tier of a group. -/
def inserts (c : Cluster) (index : Nat) (action : Action) : Bool :=
  (c.fill? action).any fun fill ↦ fill.group = index &&
    (c.groups[index]?).any (·.inserts fill.key fill.tier fill.outcome)

/-- Whether frames are given up by an action. -/
def Action.givesUp : Action → Bool
  | .heed .. | .breakOff .. | .expire _ | .drop _ => true
  | _ => false

variable {c following : Cluster} {action : Action} {number index : Nat} {kind : FrameStage → Bool}

/-! ## Tasks that change -/

/-- The frames of one task are counted anew. -/
theorem Retasks.census {change : Task → Task} {task : Task} (h : c.Retasks number following change)
    (htask : c.tasks[number]? = some task) (index : Nat) (kind : FrameStage → Bool) :
    following.census index kind + tally index kind task.frames =
      c.census index kind + tally index kind (change task).frames := by
  obtain ⟨hlt, rfl⟩ := Array.getElem?_eq_some_iff.1 htask
  have hsplit : c.tasks.toList = c.tasks.toList.take number ++ c.tasks.toList[number] ::
      c.tasks.toList.drop (number + 1) := by
    rw [List.getElem_cons_drop, List.take_append_drop]
  unfold Cluster.census
  rw [h.tasks, Array.toList_modify, List.modify_eq_take_cons_drop (by simpa using hlt)]
  conv_rhs => rw [hsplit]
  simp only [List.map_append, List.map_cons, List.sum_append, List.sum_cons, Array.getElem_toList]
  omega

/-- The frames of a new task are counted as well. -/
theorem census_push {task : Task} (h : following.tasks = c.tasks.push task) :
    following.census index kind = c.census index kind + tally index kind task.frames := by
  simp [census, h]

theorem census_congr (h : following.tasks = c.tasks) :
    following.census index kind = c.census index kind := by
  rw [census, census, h]

/-- Nothing is counted where no frame on a group is at a stage of the kind. -/
theorem census_eq_zero {kind : FrameStage → Bool}
    (h : ∀ number frame, c.HasFrame number frame → frame.group = index →
      kind frame.stage = false) : c.census index kind = 0 := by
  refine List.sum_eq_zero_iff_forall_eq_nat.2 fun count hmem ↦ ?_
  obtain ⟨task, htask, rfl⟩ := List.mem_map.1 hmem
  obtain ⟨number, hnumber⟩ := List.mem_iff_getElem?.1 htask
  refine List.countP_eq_zero.2 fun frame hmem ↦ ?_
  by_cases heq : frame.group = index
  · rw [h number frame ⟨task, by simpa using hnumber, hmem⟩ heq, Bool.and_false]
    exact Bool.false_ne_true
  · simp [heq]

/-- Frames that are given up leave their groups at rest. -/
theorem abandon_rests {group : Group} (frames : List Frame) (h : c.groups[index]? = some group) :
    ∃ after, (c.abandon frames).groups[index]? = some after ∧ after.Rests group := by
  refine abandon_induction
    (P := fun left ↦ ∃ after, left.groups[index]? = some after ∧ after.Rests group)
    ⟨group, h, .refl group⟩ ?_
  rintro left frame flight errand other ⟨after, hafter, hrests⟩ _ _ hother
  rw [groups_setGroup, Array.getElem?_setIfInBounds]
  by_cases heq : frame.group = index
  · subst heq
    rw [hafter] at hother
    cases hother
    rw [if_pos rfl, if_pos (Array.getElem?_eq_some_iff.1 hafter).1]
    exact ⟨_, rfl, hrests.cache, hrests.settings, hrests.gate, hrests.counts, hrests.executions,
      hrests.waits⟩
  · exact ⟨after, by rw [if_neg heq, hafter], hrests⟩

/-! ## What a move counts -/

/-- A move takes one frame on a group from one stage to another, as far as frames are counted. Some
frames of the task that it is about are gone, which had come to an outcome or are given up. -/
def Recounts (c : Cluster) (action : Action) (following : Cluster) (index : Nat)
    (gone come : FrameStage) : Prop :=
  ∃ lost, (∀ frame ∈ lost, (∃ outcome, frame.stage = .answered outcome) ∨
      action.givesUp = true ∧ ∃ number, action.mover? = some number ∧ c.HasFrame number frame) ∧
    ∀ kind, Passing kind →
      following.census index kind + tally index kind lost + (kind gone).toNat =
        c.census index kind + (kind come).toNat

section

variable {gone come : FrameStage}

/-- Frames are taken from one stage to another, or are gone. -/
theorem Recounts.le (h : Recounts c action following index gone come) (hkind : Passing kind) :
    following.census index kind + (kind gone).toNat ≤
      c.census index kind + (kind come).toNat := by
  obtain ⟨lost, -, hcount⟩ := h
  have hcount := hcount kind hkind
  omega

/-- No frame is given up that is at a stage of the kind. -/
theorem Recounts.eq (h : Recounts c action following index gone come) (hkind : Passing kind)
    (hnone : action.givesUp = true → ∀ number frame, action.mover? = some number →
      c.HasFrame number frame → kind frame.stage = false) :
    following.census index kind + (kind gone).toNat =
      c.census index kind + (kind come).toNat := by
  obtain ⟨lost, hlost, hcount⟩ := h
  have hzero : tally index kind lost = 0 := by
    refine List.countP_eq_zero.2 fun frame hmem ↦ ?_
    have hstage : kind frame.stage = false := by
      rcases hlost frame hmem with ⟨outcome, hstage⟩ | ⟨hgives, number, hmover, hframe⟩
      · rw [hstage, hkind.answered]
      · exact hnone hgives number frame hmover hframe
    rw [hstage, Bool.and_false]
    exact Bool.false_ne_true
  have hcount := hcount kind hkind
  omega

/-- No frame is counted anew where no task changes. -/
theorem recounts_congr (h : following.tasks = c.tasks) :
    Recounts c action following index .asked .asked :=
  ⟨[], fun _ hmem ↦ (nomatch hmem), fun _ _ ↦ by rw [tally_nil, Nat.add_zero, census_congr h]⟩

/-- The frames of a new task are at stages that are not counted. -/
theorem recounts_push {task : Task} (h : following.tasks = c.tasks.push task)
    (hasked : ∀ frame ∈ task.frames, frame.stage = .asked) :
    Recounts c action following index .asked .asked := by
  refine ⟨[], fun _ hmem ↦ (nomatch hmem), fun kind hkind ↦ ?_⟩
  have hnone : tally index kind task.frames = 0 := by
    refine List.countP_eq_zero.2 fun frame hmem ↦ ?_
    rw [hasked frame hmem, hkind.asked, Bool.and_false]
    exact Bool.false_ne_true
  rw [census_push h, hnone, tally_nil, Nat.add_zero]

variable {change : Task → Task} {task : Task} {lost kept : List Frame}

/-- The frames of a task are counted by what is left of them after some are gone. -/
theorem Retasks.recounts (h : c.Retasks number following change)
    (htask : c.tasks[number]? = some task) (hframes : task.frames = lost ++ kept)
    (hlost : ∀ frame ∈ lost, (∃ outcome, frame.stage = .answered outcome) ∨
      action.givesUp = true ∧ action.mover? = some number)
    (hcount : ∀ kind, Passing kind →
      tally index kind (change task).frames + (kind gone).toNat =
        tally index kind kept + (kind come).toNat) :
    Recounts c action following index gone come := by
  refine ⟨lost, fun frame hmem ↦ ?_, fun kind hkind ↦ ?_⟩
  · refine (hlost frame hmem).imp_right fun ⟨hgives, hmover⟩ ↦ ?_
    exact ⟨hgives, number, hmover, task, htask, hframes ▸ List.mem_append_left kept hmem⟩
  · have hcensus := h.census htask index kind
    rw [hframes, tally_append] at hcensus
    have hcount := hcount kind hkind
    omega

/-- The frames that are left of a task are counted as before. -/
theorem Retasks.recounts_left (h : c.Retasks number following change)
    (htask : c.tasks[number]? = some task) (hframes : task.frames = lost ++ (change task).frames)
    (hlost : ∀ frame ∈ lost, (∃ outcome, frame.stage = .answered outcome) ∨
      action.givesUp = true ∧ action.mover? = some number) :
    Recounts c action following index .asked .asked :=
  h.recounts htask hframes hlost fun _ _ ↦ rfl

/-- A frame that is taken to another stage is counted there. -/
theorem Retasks.recounts_restaged {frame : Frame} {stage : FrameStage}
    (h : c.Reframes number following ({ frame with stage } :: kept))
    (htask : c.tasks[number]? = some task) (hframes : task.frames = lost ++ frame :: kept)
    (hlost : ∀ frame ∈ lost, (∃ outcome, frame.stage = .answered outcome) ∨
      action.givesUp = true ∧ action.mover? = some number) :
    (frame.group = index → Recounts c action following index frame.stage stage) ∧
      (frame.group ≠ index → Recounts c action following index .asked .asked) := by
  refine ⟨fun heq ↦ ?_, fun hne ↦ ?_⟩
  · refine Retasks.recounts h htask hframes hlost fun kind _ ↦ ?_
    simp only [tally_cons, heq, decide_true, Bool.true_and]
    omega
  · refine Retasks.recounts h htask hframes hlost fun kind _ ↦ ?_
    simp only [tally_cons, hne, decide_false, Bool.false_and]

end

/-- An action refuses no get of a group and inserts nothing into it. -/
structure Quiet (c : Cluster) (index : Nat) (action : Action) : Prop where
  refuses : c.refuses index action = false
  inserts : c.inserts index action = false

/-- What a move does to one group and to the number of frames on it. -/
inductive Books (c : Cluster) (action : Action) (following : Cluster) (index : Nat)
    (group : Group) : Group → Prop where
  | rested (after : Group) :
      after.Rests group → c.Quiet index action →
      (action.givesUp = false → after.flights = group.flights) →
      Recounts c action following index .asked .asked → Books c action following index group after
  | turned (number : Nat) (task : Task) (frame : Frame) (outer : List Frame) (stage : FrameStage)
      (after : Group) :
      c.tasks[number]? = some task → task.frames = frame :: outer → frame.group = index →
      Turn c number task frame group action stage after →
      Recounts c action following index frame.stage stage →
      Books c action following index group after
  | fetched (left : Group) (key : String) (flight : Nat) (peer : String) (answer : Outcome) :
      left.Rests group → c.refuses index action = false →
      c.inserts index action = group.inserts key .hot answer →
      (action.givesUp = false → left.flights = group.flights) →
      Recounts c action following index (.leading flight (.fetching peer))
        (.leading flight (left.takeFetched key c.now answer).1.errand) →
      Books c action following index group (left.takeFetched key c.now answer).2
  | removed (key : String) :
      action = .remove index key → Recounts c action following index .asked .asked →
      Books c action following index group (group.remove key).2
  | cleared (after : Group) : action = .clear index → Books c action following index group after

/-! ## Refused gets and inserted entries -/

section

variable {task : Task} {frame : Frame} {outer : List Frame}

theorem inserts_of_fill? (h : c.fill? action = none) : c.inserts index action = false := by
  rw [inserts, h]
  rfl

/-- A frame that has no outcome to hand on takes no answer in by itself. -/
theorem fill?_step (htask : c.tasks[number]? = some task) (hframes : task.frames = frame :: outer)
    (hbusy : ∀ outcome, frame.stage ≠ .answered outcome) : c.fill? (.step number) = none := by
  simp only [fill?, htask, hframes, Option.bind_eq_bind, Option.bind_some]
  cases outer with
  | nil => rfl
  | cons parent rest =>
      dsimp only
      split
      · next outcome _ _ hstage _ => exact absurd hstage (hbusy outcome)
      · rfl

theorem inserts_step (htask : c.tasks[number]? = some task) (hframes : task.frames = frame :: outer)
    (hbusy : ∀ outcome, frame.stage ≠ .answered outcome) :
    c.inserts index (.step number) = false :=
  inserts_of_fill? (fill?_step htask hframes hbusy)

/-- A frame that has asked its group already is not refused. -/
theorem refuses_step (htask : c.tasks[number]? = some task) (hframes : task.frames = frame :: outer)
    (hstage : frame.stage ≠ .asked) : c.refuses index (.step number) = false := by
  simp [refuses, htask, hframes, hstage]

/-- A leader that looks at the tiers is not refused, and takes no answer in. -/
theorem quiet_recheck {flight : Nat} (htask : c.tasks[number]? = some task)
    (hframes : task.frames = frame :: outer) (hstage : frame.stage = .leading flight .recheck) :
    c.Quiet index (.step number) :=
  ⟨refuses_step htask hframes (by simp [hstage]), inserts_step htask hframes (by simp [hstage])⟩

/-- An action that does nothing refuses nothing and inserts nothing. -/
theorem Idles.quiet (h : c.Idles action) : c.Quiet index action := by
  cases action with
  | step number =>
      obtain ⟨task, frame, outer, flight, htask, hframes, hstage⟩ := h
      exact quiet_recheck htask hframes hstage
  | create | drop | advance => exact ⟨rfl, rfl⟩
  | _ => exact h.elim

/-- Nothing is inserted into a group that the frame above is not on. -/
theorem inserts_handing {parent : Frame} {rest : List Frame} {outcome : Outcome}
    (htask : c.tasks[number]? = some task) (hframes : task.frames = frame :: parent :: rest)
    (hstage : frame.stage = .answered outcome)
    (helsewhere : ∀ flight peer, parent.stage = .leading flight (.fetching peer) →
      parent.group ≠ index) : c.inserts index (.step number) = false := by
  by_cases hfetching : ∃ flight peer, parent.stage = .leading flight (.fetching peer)
  · obtain ⟨flight, peer, hparent⟩ := hfetching
    have hne := helsewhere flight peer hparent
    simp [inserts, fill?, htask, hframes, hstage, hparent, hne]
  · refine inserts_of_fill? ?_
    simp only [fill?, htask, hframes, Option.bind_eq_bind, Option.bind_some]
    split
    · next hparent => exact absurd ⟨_, _, hparent⟩ hfetching
    · rfl

variable {group after : Group} {stage : FrameStage}

/-- A turn is of a frame that has no outcome to hand on. -/
theorem Turn.unanswered (turn : Turn c number task frame group action stage after)
    (outcome : Outcome) : frame.stage ≠ .answered outcome := by
  intro hanswered
  cases turn <;> simp_all [Contends]

/-- A turn is of a task by itself, or takes an answer in. -/
theorem Turn.action_cases (turn : Turn c number task frame group action stage after) :
    action = .step number ∨ (∃ answer, action = .answerLoad number answer) ∨
      ∃ answer, action = .answerFetch number answer := by
  cases turn with
  | loaded _ answer => exact .inr (.inl ⟨answer, rfl⟩)
  | fetched _ _ answer => exact .inr (.inr ⟨answer, rfl⟩)
  | _ => exact .inl rfl

/-- A turn on another group refuses no get of this one, and inserts nothing into it. -/
theorem Turn.quiet (turn : Turn c number task frame group action stage after)
    (htask : c.tasks[number]? = some task) (hframes : task.frames = frame :: outer)
    (hne : frame.group ≠ index) : c.Quiet index action := by
  rcases turn.action_cases with rfl | ⟨answer, rfl⟩ | ⟨answer, rfl⟩
  · exact ⟨by simp [refuses, htask, hframes, hne], inserts_step htask hframes turn.unanswered⟩
  · exact ⟨rfl, by simp [inserts, fill?, htask, hframes, hne]⟩
  · exact ⟨rfl, by simp [inserts, fill?, htask, hframes, hne]⟩

end

/-! ## Every move keeps the books -/

/-- A group is there after a move, and its books are kept. -/
def Keeps (c : Cluster) (action : Action) (following : Cluster) (index : Nat) (group : Group) :
    Prop :=
  ∃ after, following.groups[index]? = some after ∧ Books c action following index group after

section

variable {group : Group}

/-- What a group is after another one was put back. -/
theorem cases_setIfInBounds {groups : Array Group} (h : groups[index]? = some group) (other : Nat)
    (replaced : Group) :
    other = index ∧ (groups.setIfInBounds other replaced)[index]? = some replaced ∨
      other ≠ index ∧ (groups.setIfInBounds other replaced)[index]? = some group := by
  rw [Array.getElem?_setIfInBounds]
  split
  · next heq =>
    subst heq
    rw [if_pos (Array.getElem?_eq_some_iff.1 h).1]
    exact .inl ⟨rfl, rfl⟩
  · next hne => exact .inr ⟨hne, h⟩

/-- The books of a group that stays as it is are kept. -/
theorem keeps_same (hgroups : following.groups[index]? = some group)
    (hquiet : c.Quiet index action)
    (hrecounts : Recounts c action following index .asked .asked) :
    c.Keeps action following index group :=
  ⟨group, hgroups, .rested group (.refl group) hquiet (fun _ ↦ rfl) hrecounts⟩

/-- So are those of a group that frames were given up on. -/
theorem keeps_abandon (hgroup : c.groups[index]? = some group) {frames : List Frame}
    (hgroups : following.groups = (c.abandon frames).groups) (hquiet : c.Quiet index action)
    (hgives : action.givesUp = true)
    (hrecounts : Recounts c action following index .asked .asked) :
    c.Keeps action following index group := by
  obtain ⟨after, hafter, hrests⟩ := abandon_rests frames hgroup
  exact ⟨after, hgroups ▸ hafter, .rested after hrests hquiet
    (fun hkeeps ↦ absurd (hkeeps.symm.trans hgives) Bool.false_ne_true) hrecounts⟩

/-- So are those of a group that a request came to, or another one. -/
theorem keeps_recordServerRequest (hgroup : c.groups[index]? = some group) {target : Nat}
    {served : Group} (hserved : c.groups[target]? = some served)
    (hgroups : following.groups = c.groups.setIfInBounds target served.recordServerRequest)
    (hquiet : c.Quiet index action)
    (hrecounts : Recounts c action following index .asked .asked) :
    c.Keeps action following index group := by
  rcases cases_setIfInBounds hgroup target served.recordServerRequest with
    ⟨rfl, hafter⟩ | ⟨-, hafter⟩
  · rw [hserved] at hgroup
    cases hgroup
    exact ⟨_, hgroups ▸ hafter, .rested _ (Group.rests_recordServerRequest _) hquiet
      (fun _ ↦ rfl) hrecounts⟩
  · exact keeps_same (hgroups ▸ hafter) hquiet hrecounts

/-- So are those of a group that took in what its peer answered, or another one, after frames were
given up. -/
theorem keeps_fetched {task : Task} {frame : Frame} {lost outer : List Frame} {left resting : Group}
    {groups : Array Group} {flight : Nat} {peer : String} {answer : Outcome}
    (hleft : groups[frame.group]? = some left) (hresting : groups[index]? = some resting)
    (hrests : resting.Rests group)
    (hflights : action.givesUp = false → resting.flights = group.flights)
    (hgroups : following.groups =
      groups.setIfInBounds frame.group (left.takeFetched frame.key c.now answer).2)
    (htask : c.tasks[number]? = some task) (hframes : task.frames = lost ++ frame :: outer)
    (hlost : ∀ frame ∈ lost, (∃ outcome, frame.stage = .answered outcome) ∨
      action.givesUp = true ∧ action.mover? = some number)
    (hstage : frame.stage = .leading flight (.fetching peer))
    (hreframes : c.Reframes number following
      ({ frame with
          stage := .leading flight (left.takeFetched frame.key c.now answer).1.errand } :: outer))
    (hrefuses : c.refuses index action = false)
    (hinserts : c.inserts index action =
      (decide (frame.group = index) && group.inserts frame.key .hot answer)) :
    c.Keeps action following index group := by
  obtain ⟨hhere, helsewhere⟩ := Retasks.recounts_restaged hreframes htask hframes hlost
  rcases cases_setIfInBounds hresting frame.group
    (left.takeFetched frame.key c.now answer).2 with ⟨heq, hafter⟩ | ⟨hne, hafter⟩
  · have hrecounts := hhere heq
    rw [heq, hresting] at hleft
    cases hleft
    rw [hstage] at hrecounts
    rw [decide_eq_true heq, Bool.true_and] at hinserts
    exact ⟨_, hgroups ▸ hafter,
      .fetched left frame.key flight peer answer hrests hrefuses hinserts hflights hrecounts⟩
  · rw [decide_eq_false hne, Bool.false_and] at hinserts
    exact ⟨resting, hgroups ▸ hafter,
      .rested resting hrests ⟨hrefuses, hinserts⟩ hflights (helsewhere hne)⟩

/-- Every move keeps the books of every group. -/
theorem Move.books (move : Move c action following) (hgroup : c.groups[index]? = some group) :
    c.Keeps action following index group := by
  cases move with
  | turned number task frame outer other _ stage after following htask hframes hother hturn
      hreframes hgroups =>
    obtain ⟨hhere, helsewhere⟩ :=
      Retasks.recounts_restaged hreframes htask ((List.nil_append _).trans hframes.symm).symm
        (fun _ hmem ↦ nomatch hmem)
    rcases cases_setIfInBounds hgroup frame.group after with ⟨heq, hafter⟩ | ⟨hne, hafter⟩
    · rw [heq, hgroup] at hother
      cases hother
      exact ⟨after, hgroups ▸ hafter,
        .turned number task frame outer stage after htask hframes heq hturn (hhere heq)⟩
    · exact keeps_same (hgroups ▸ hafter) (hturn.quiet htask hframes hne) (helsewhere hne)
  | forwarded number task frame outer other served flight home peer sharesToken node target
      following htask hframes hother hstage hpeek hhome hpick hcarrier hroute hserved hreframes
      hgroups hevents =>
    refine keeps_recordServerRequest hgroup hserved hgroups (quiet_recheck htask hframes hstage) ?_
    refine hreframes.recounts htask (List.nil_append _).symm (fun _ hmem ↦ nomatch hmem)
      fun kind hkind ↦ ?_
    simp [hframes, hstage, hkind.asked, hkind.fetching]
  | handed number task frame parent outer other outcome flight peer following htask hframes hstage
      hparent hother hreframes hgroups =>
    refine keeps_fetched hother hgroup (.refl group) (fun _ ↦ rfl) hgroups htask
      (show task.frames = [frame] ++ parent :: outer from hframes)
      (List.forall_mem_singleton.2 (.inl ⟨outcome, hstage⟩)) hparent hreframes
      (refuses_step htask hframes (by simp [hstage])) ?_
    simp [inserts, fill?, htask, hframes, hstage, hparent, hgroup]
  | popped number task frame outer outcome following htask hframes hstage hreframes hgroups _
      hidle =>
    refine keeps_same (hgroups ▸ hgroup) ⟨refuses_step htask hframes (by simp [hstage]), ?_⟩ ?_
    · cases outer with
      | nil => exact inserts_of_fill? (by simp [fill?, htask, hframes])
      | cons parent rest =>
        refine inserts_handing htask hframes hstage fun flight peer hparent ↦ ?_
        rintro rfl
        cases hgroup.symm.trans (hidle parent rest flight peer rfl hparent)
    · exact hreframes.recounts_left htask (show task.frames = [frame] ++ outer from hframes)
        (List.forall_mem_singleton.2 (.inl ⟨outcome, hstage⟩))
  | finished number task frame outcome following htask hframes hstage hretasks hgroups =>
    refine keeps_same (hgroups ▸ hgroup) ⟨refuses_step htask hframes (by simp [hstage]),
      inserts_of_fill? (by simp [fill?, htask, hframes])⟩ ?_
    exact hretasks.recounts_left htask (show task.frames = [frame] ++ [] from hframes)
      (List.forall_mem_singleton.2 (.inl ⟨outcome, hstage⟩))
  | heeded number depth task frame following htask hframe hcancelled hhears hawaits hreframes
      hgroups =>
    refine keeps_abandon hgroup hgroups ⟨rfl, rfl⟩ rfl ?_
    refine hreframes.recounts htask (List.take_append_drop (depth + 1) _).symm
      (fun _ _ ↦ .inr ⟨rfl, rfl⟩) fun kind hkind ↦ ?_
    simp [hkind.answered]
  | brokeOff number depth reason task frame flight peer left following htask hframe hstage hother
      hreframes hgroups =>
    have hframes : task.frames =
        task.frames.take (depth + 1) ++ frame :: task.frames.drop (depth + 2) := by
      obtain ⟨hlt, rfl⟩ := List.getElem?_eq_some_iff.1 hframe
      rw [List.getElem_cons_drop, List.take_append_drop]
    obtain ⟨resting, hresting, hrests⟩ := abandon_rests (task.frames.take (depth + 1)) hgroup
    exact keeps_fetched hother hresting hrests
      (fun hkeeps ↦ absurd hkeeps.symm Bool.false_ne_true) hgroups htask hframes
      (fun _ _ ↦ .inr ⟨rfl, rfl⟩) hstage hreframes rfl (Bool.and_false _).symm
  | expired number task deadline following htask hpending hdeadline hdue hretasks hgroups =>
    refine keeps_abandon hgroup hgroups ⟨rfl, rfl⟩ rfl ?_
    exact hretasks.recounts_left htask (List.append_nil _).symm fun _ _ ↦ .inr ⟨rfl, rfl⟩
  | dropped number task following htask hpending hretasks hgroups =>
    refine keeps_abandon hgroup hgroups ⟨rfl, rfl⟩ rfl ?_
    exact hretasks.recounts_left htask (List.append_nil _).symm fun _ _ ↦ .inr ⟨rfl, rfl⟩
  | fired number =>
    have hretasks : c.Retasks number (c.cancel number) fun t ↦ { t with cancelled := true } :=
      ⟨rfl, rfl, rfl⟩
    refine keeps_same hgroup ⟨rfl, rfl⟩ ?_
    cases htask : c.tasks[number]? with
    | none =>
      refine recounts_congr (Array.toList_inj.1 ?_)
      rw [hretasks.tasks, Array.toList_modify, List.modify_eq_self]
      exact Array.getElem?_eq_none_iff.1 htask
    | some task =>
      exact hretasks.recounts_left htask (List.nil_append _).symm fun _ hmem ↦ nomatch hmem
  | asked => exact keeps_same hgroup ⟨rfl, rfl⟩ (recounts_push rfl (by simp))
  | responded => exact keeps_same hgroup ⟨rfl, rfl⟩ (recounts_push rfl (by simp))
  | requested node method path name key other served deadline hserved hindex =>
    exact keeps_recordServerRequest hgroup hserved rfl ⟨rfl, rfl⟩ (recounts_push rfl (by simp))
  | removed other key found hfound =>
    rcases cases_setIfInBounds hgroup other (found.remove key).2 with ⟨rfl, hafter⟩ | ⟨-, hafter⟩
    · rw [hfound] at hgroup
      cases hgroup
      exact ⟨_, hafter, .removed key rfl (recounts_congr rfl)⟩
    · exact keeps_same hafter ⟨rfl, rfl⟩ (recounts_congr rfl)
  | cleared other found hfound =>
    rcases cases_setIfInBounds hgroup other found.clear with ⟨rfl, hafter⟩ | ⟨-, hafter⟩
    · exact ⟨_, hafter, .cleared _ rfl⟩
    · exact keeps_same hafter ⟨rfl, rfl⟩ (recounts_congr rfl)
  | created node name settings =>
    refine keeps_same ?_ ⟨rfl, rfl⟩ (recounts_congr rfl)
    show (c.groups.push _)[index]? = some group
    rw [Array.getElem?_push, if_neg (Nat.ne_of_lt (Array.getElem?_eq_some_iff.1 hgroup).1), hgroup]
  | added => exact keeps_same hgroup ⟨rfl, rfl⟩ (recounts_congr rfl)
  | rewired _ node change _ hrewires =>
    have hquiet : c.Quiet index action := by
      cases action <;> first | exact ⟨rfl, rfl⟩ | cases hrewires
    exact keeps_same hgroup hquiet (recounts_congr rfl)
  | stayed _ _ hgroups htasks hnodes hidles =>
    exact keeps_same (hgroups ▸ hgroup) hidles.quiet (recounts_congr htasks)

end

end Cluster

end ReadThrough
