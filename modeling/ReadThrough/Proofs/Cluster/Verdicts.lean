import Mathlib.Logic.Function.Basic
import ReadThrough.Proofs.Cluster.Transitions
import ReadThrough.Proofs.Group.Agreement

/-!
# Verdicts over a whole cluster

The main statement is `Runs.sound`: if loaders and external peers answer within a verdict, every
group of the cluster agrees with it, and so does every outcome that a get under way has come to
and every answer of a get. The invariant gives each flight a key and each task a goal, the name
and the key that all its frames are for, so that what it says of a frame, a flight or an answer
speaks of nothing else.
-/

namespace ReadThrough

/-- What the stage of a frame means for its group, given the key of each flight. -/
def FrameStage.Fits (P : Verdict) (keys : Nat → String) (group : Group) (key : String) :
    FrameStage → Prop
  | .asked | .missed => True
  | .waiting flight => flight < group.flights.flights.size ∧ keys flight = key
  | .leading flight errand =>
      (flight < group.flights.flights.size ∧ keys flight = key) ∧
        ∀ outcome, errand = .done outcome → P group.name key outcome
  | .answered outcome => P group.name key outcome

/-- What holds of a frame of a task with a goal. -/
def Frame.Fits (P : Verdict) (keys : Nat → Nat → String) (c : Cluster)
    (goal : String × String) (frame : Frame) : Prop :=
  ∃ group, c.groups[frame.group]? = some group ∧ group.name = goal.1 ∧ frame.key = goal.2 ∧
    frame.stage.Fits P (keys frame.group) group frame.key

namespace Cluster

/-- What holds of every cluster whose loaders and external peers answer within a verdict. -/
structure Sound (P : Verdict) (keys : Nat → Nat → String) (goals : Nat → String × String)
    (c : Cluster) : Prop where
  groups : ∀ (index : Nat) (group : Group), c.groups[index]? = some group →
    group.Agrees P (keys index)
  frames : ∀ (number : Nat) (task : Task), c.tasks[number]? = some task →
    ∀ frame ∈ task.frames, frame.Fits P keys c (goals number)
  answers : ∀ (number : Nat) (task : Task) (outcome : Outcome), c.tasks[number]? = some task →
    task.answer = some (.got outcome) → P (goals number).1 (goals number).2 outcome
  registry : ∀ (index : Nat) (node : Node) (name : String) (number : Nat),
    c.nodes[index]? = some node → (name, number) ∈ node.registry →
    ∃ group, c.groups[number]? = some group ∧ group.name = name

/-- The innermost frame of a task, with its group. -/
def Innermost (c : Cluster) (number : Nat) (frame : Frame) (group : Group) : Prop :=
  ∃ task outer, c.tasks[number]? = some task ∧ task.frames = frame :: outer ∧
    c.groups[frame.group]? = some group

end Cluster

/-- What a verdict asks of the surroundings: loaders answer within it, external peers credibly, and
groups that pass the failures of their peers on are made only if it lets those through. -/
def Verdict.Allows (P : Verdict) (c : Cluster) : Cluster.Action → Prop
  | .create _ name settings =>
      settings.fallbackToLocal = true ∨ ∀ key fault, P name key (.error fault)
  | .answerLoad number answer => ∀ frame group, c.Innermost number frame group →
      P group.name frame.key (LoadAnswer.outcome frame.key answer)
  | .answerFetch number answer => ∀ frame group, c.Innermost number frame group →
      P.Credible group.name frame.key answer
  | _ => True

variable {P : Verdict}

/-! ## Growing groups -/

/-- A later state of a group: its name stays, and its flights are not taken away. -/
structure Group.Grows (group after : Group) : Prop where
  name : after.name = group.name
  size : group.flights.flights.size ≤ after.flights.flights.size

theorem Group.Kept.grows {group after : Group} (h : after.Kept group) : group.Grows after :=
  ⟨h.name, Nat.le_of_eq (by rw [h.flights])⟩

/-- Only the keys of flights that there are matter. -/
theorem Group.Agrees.congr {keys keys' : Nat → String} {group : Group} (h : group.Agrees P keys)
    (hkeys : ∀ flight < group.flights.flights.size, keys' flight = keys flight) :
    group.Agrees P keys' where
  shielded := h.shielded
  held := h.held
  absent := h.absent
  records := by
    intro key flight hmem
    obtain ⟨haloft, hkey⟩ := h.records key flight hmem
    exact ⟨haloft, (hkeys flight (Array.getElem?_eq_some_iff.1 haloft).1).trans hkey⟩
  landed := by
    intro flight outcome hlanded
    rw [hkeys flight (Array.getElem?_eq_some_iff.1 hlanded).1]
    exact h.landed flight outcome hlanded

/-- A stage that fits a group fits every later state of it. -/
theorem FrameStage.Fits.grow {keys keys' : Nat → String} {group after : Group} {key : String}
    {stage : FrameStage} (h : stage.Fits P keys group key) (hgrows : group.Grows after)
    (hkeys : ∀ flight < group.flights.flights.size, keys' flight = keys flight) :
    stage.Fits P keys' after key := by
  cases stage with
  | asked | missed => trivial
  | waiting flight =>
      obtain ⟨hlt, hkey⟩ := h
      exact ⟨Nat.lt_of_lt_of_le hlt hgrows.size, (hkeys flight hlt).trans hkey⟩
  | leading flight errand =>
      obtain ⟨⟨hlt, hkey⟩, hdone⟩ := h
      refine ⟨⟨Nat.lt_of_lt_of_le hlt hgrows.size, (hkeys flight hlt).trans hkey⟩, ?_⟩
      rw [hgrows.name]
      exact hdone
  | answered outcome =>
      unfold FrameStage.Fits at h ⊢
      rw [hgrows.name]
      exact h

namespace Cluster

/-! ## Landing -/

/-- A turn lands a flight only where the frame leads it and is done. -/
theorem Turn.lands {c : Cluster} {number : Nat} {task : Task} {frame : Frame}
    {group after : Group} {action : Action} {stage : FrameStage}
    (turn : Turn c number task frame group action stage after) {flight : Nat} {outcome : Outcome}
    (hlanded : after.flights.flights[flight]? = some (.landed outcome)) :
    group.flights.flights[flight]? = some (.landed outcome) ∨
      action = .step number ∧ frame.stage = .leading flight (.done outcome) := by
  have hkept : after.Kept group → group.flights.flights[flight]? = some (.landed outcome) :=
    fun hkept ↦ hkept.flights ▸ hlanded
  cases turn with
  | answered answer after hstage hconsult =>
      have hconsulted := group.consult_kept frame.key c.now (frame.hearsToken && task.cancelled)
      rw [hconsult] at hconsulted
      exact .inl (hkept hconsulted)
  | missed after hstage hconsult =>
      have hconsulted := group.consult_kept frame.key c.now (frame.hearsToken && task.cancelled)
      rw [hconsult] at hconsulted
      exact .inl (hkept hconsulted)
  | led =>
      rw [Array.getElem?_push] at hlanded
      split at hlanded
      · cases hlanded
      · exact .inl hlanded
  | joined | took | found | loads | fetches => exact .inl hlanded
  | refused => exact .inl (hkept (group.takeFetched_kept _ _ _))
  | fetched => exact .inl (hkept (group.takeFetched_kept _ _ _))
  | loaded => exact .inl (hkept (group.takeLoaded_kept _ _ _))
  | landed landing done hstage =>
      -- the only turn that tells what became of a flight
      replace hlanded : (group.flights.flights.setIfInBounds landing (.landed done))[flight]? =
        some (.landed outcome) := hlanded
      rw [Array.getElem?_setIfInBounds] at hlanded
      split at hlanded
      · next heq =>
        subst heq
        split at hlanded
        · cases hlanded
          exact .inr ⟨rfl, hstage⟩
        · cases hlanded
      · exact .inl hlanded

/-- Abandoning frames lands no flight. -/
theorem landed_abandon {c : Cluster} {frames : List Frame} {index flight : Nat} {after : Group}
    {outcome : Outcome} (hafter : (c.abandon frames).groups[index]? = some after)
    (hlanded : after.flights.flights[flight]? = some (.landed outcome)) :
    ∃ group, c.groups[index]? = some group ∧
      group.flights.flights[flight]? = some (.landed outcome) := by
  have hall : ∀ (index : Nat) (after : Group), (c.abandon frames).groups[index]? = some after →
      after.flights.flights[flight]? = some (.landed outcome) →
      ∃ group, c.groups[index]? = some group ∧
        group.flights.flights[flight]? = some (.landed outcome) := by
    refine abandon_induction (P := fun left ↦ ∀ (index : Nat) (after : Group),
      left.groups[index]? = some after →
      after.flights.flights[flight]? = some (.landed outcome) →
      ∃ group, c.groups[index]? = some group ∧
        group.flights.flights[flight]? = some (.landed outcome))
      (fun _ after hafter hlanded ↦ ⟨after, hafter, hlanded⟩) ?_
    intro left frame lost errand group hleft _ _ hgroup index after hafter hlanded
    rw [groups_setGroup, Array.getElem?_setIfInBounds] at hafter
    split at hafter
    · next heq =>
      subst heq
      split at hafter
      · cases hafter
        replace hlanded : (group.flights.flights.setIfInBounds lost .lost)[flight]? =
          some (.landed outcome) := hlanded
        rw [Array.getElem?_setIfInBounds] at hlanded
        split at hlanded
        · split at hlanded <;> cases hlanded
        · exact hleft _ group hgroup hlanded
      · cases hafter
    · exact hleft index after hafter hlanded
  exact hall index after hafter hlanded

/-! ## Sound clusters -/

variable {keys keys' : Nat → Nat → String} {goals : Nat → String × String}
  {c following : Cluster} {number index : Nat}

/-- A cluster that is sound for a verdict is sound for one that lets more through. -/
theorem Sound.mono {Q : Verdict} (h : Sound P keys goals c)
    (hmore : ∀ name key outcome, P name key outcome → Q name key outcome) :
    Sound Q keys goals c where
  groups := fun index group hgroup ↦ (h.groups index group hgroup).mono hmore
  frames := by
    intro number task htask frame hframe
    obtain ⟨group, hgroup, hname, hkey, hfits⟩ := h.frames number task htask frame hframe
    refine ⟨group, hgroup, hname, hkey, ?_⟩
    generalize frame.stage = stage at hfits
    cases stage with
    | asked | missed => trivial
    | waiting flight => exact hfits
    | leading flight errand =>
        exact ⟨hfits.1, fun outcome hdone ↦ hmore _ _ _ (hfits.2 outcome hdone)⟩
    | answered outcome => exact hmore _ _ _ hfits
  answers := fun number task outcome htask hgot ↦
    hmore _ _ _ (h.answers number task outcome htask hgot)
  registry := h.registry

/-- A group that is put back, agrees and is a later state keeps the cluster sound. -/
theorem Sound.regroup (h : Sound P keys goals c) {group after : Group}
    (hgroup : c.groups[index]? = some group) (hgrows : group.Grows after)
    (hkeys : ∀ (other : Nat) (found : Group) (flight : Nat), c.groups[other]? = some found →
      flight < found.flights.flights.size → keys' other flight = keys other flight)
    (hagrees : after.Agrees P (keys' index)) :
    Sound P keys' goals (c.setGroup index after) := by
  have hlater : ∀ {other : Nat} {found : Group}, c.groups[other]? = some found →
      ∃ later, (c.setGroup index after).groups[other]? = some later ∧ found.Grows later := by
    intro other found hfound
    rw [groups_setGroup, Array.getElem?_setIfInBounds]
    by_cases heq : index = other
    · subst heq
      rw [hgroup] at hfound
      cases hfound
      exact ⟨after, by simp [(Array.getElem?_eq_some_iff.1 hgroup).1], hgrows⟩
    · exact ⟨found, by rw [if_neg heq, hfound], rfl, Nat.le_refl _⟩
  constructor
  · intro other found hfound
    rw [groups_setGroup, Array.getElem?_setIfInBounds] at hfound
    split at hfound
    · next heq =>
      subst heq
      split at hfound
      · cases hfound
        exact hagrees
      · cases hfound
    · exact (h.groups other found hfound).congr fun flight hlt ↦
        hkeys other found flight hfound hlt
  · intro other task htask frame hframe
    obtain ⟨found, hfound, hname, hkey, hfits⟩ := h.frames other task htask frame hframe
    obtain ⟨later, hlater, hgrows⟩ := hlater hfound
    exact ⟨later, hlater, hgrows.name.trans hname, hkey,
      hfits.grow hgrows fun flight hlt ↦ hkeys frame.group found flight hfound hlt⟩
  · exact h.answers
  · intro other node name target hnode hentry
    obtain ⟨found, hfound, hname⟩ := h.registry other node name target hnode hentry
    obtain ⟨later, hlater, hgrows⟩ := hlater hfound
    exact ⟨later, hlater, hgrows.name.trans hname⟩

/-- A change of the nodes alone keeps the cluster sound, if their registries still name groups. -/
theorem Sound.around (h : Sound P keys goals c) (htasks : following.tasks = c.tasks)
    (hgroups : following.groups = c.groups)
    (hregistry : ∀ (index : Nat) (node : Node) (name : String) (number : Nat),
      following.nodes[index]? = some node → (name, number) ∈ node.registry →
      ∃ group, c.groups[number]? = some group ∧ group.name = name) :
    Sound P keys goals following where
  groups := by
    rw [hgroups]
    exact h.groups
  frames := by
    unfold Frame.Fits
    rw [htasks, hgroups]
    exact h.frames
  answers := by
    rw [htasks]
    exact h.answers
  registry := by
    rw [hgroups]
    exact hregistry

/-- A change of one task keeps the cluster sound if its frames and its answer fit. -/
theorem Sound.retask (h : Sound P keys goals c) {change : Task → Task}
    (hretasks : c.Retasks number following change) (hgroups : following.groups = c.groups)
    (hframes : ∀ task, c.tasks[number]? = some task → ∀ frame ∈ (change task).frames,
      frame.Fits P keys c (goals number))
    (hanswer : ∀ task outcome, c.tasks[number]? = some task →
      (change task).answer = some (.got outcome) → P (goals number).1 (goals number).2 outcome) :
    Sound P keys goals following := by
  constructor
  · rw [hgroups]
    exact h.groups
  · intro other task htask frame hframe
    unfold Frame.Fits
    rw [hgroups]
    rcases hretasks.cases htask with hold | ⟨rfl, before, hbefore, rfl⟩
    · exact h.frames other task hold frame hframe
    · exact hframes before hbefore frame hframe
  · intro other task outcome htask hgot
    rcases hretasks.cases htask with hold | ⟨rfl, before, hbefore, rfl⟩
    · exact h.answers other task outcome hold hgot
    · exact hanswer before outcome hbefore hgot
  · rw [hgroups, hretasks.nodes]
    exact h.registry

/-- A task that is over keeps the cluster sound if its answer fits. -/
theorem Sound.ended (h : Sound P keys goals c) {task : Task}
    (htask : c.tasks[number]? = some task) {change : Task → Task}
    (hretasks : c.Retasks number following change) (hgroups : following.groups = c.groups)
    (hframes : (change task).frames = [])
    (hanswer : ∀ outcome, (change task).answer = some (.got outcome) →
      P (goals number).1 (goals number).2 outcome) : Sound P keys goals following := by
  refine h.retask hretasks hgroups ?_ ?_
  · intro found hfound frame hframe
    rw [htask] at hfound
    cases hfound
    rw [hframes] at hframe
    cases hframe
  · intro found outcome hfound hgot
    rw [htask] at hfound
    cases hfound
    exact hanswer outcome hgot

/-- Losing the flights that frames of a task lead keeps the cluster sound. -/
theorem Sound.abandon (h : Sound P keys goals c) {task : Task}
    (htask : c.tasks[number]? = some task) {frames : List Frame}
    (hframes : ∀ frame ∈ frames, frame ∈ task.frames) :
    Sound P keys goals (c.abandon frames) := by
  have hboth : Sound P keys goals (c.abandon frames) ∧ (c.abandon frames).tasks = c.tasks := by
    refine abandon_induction (P := fun left ↦ Sound P keys goals left ∧ left.tasks = c.tasks)
      ⟨h, rfl⟩ ?_
    intro left frame flight errand group hleft hmem hstage hgroup
    obtain ⟨hsound, htasks⟩ := hleft
    have htask' : left.tasks[number]? = some task := by rw [htasks, htask]
    obtain ⟨found, hfound, -, -, hfits⟩ :=
      hsound.frames number task htask' frame (hframes frame hmem)
    rw [hgroup] at hfound
    cases hfound
    rw [hstage] at hfits
    refine ⟨hsound.regroup hgroup ⟨rfl, ?_⟩ (fun _ _ _ _ _ ↦ rfl) ?_, htasks⟩
    · simp [FlightTable.lose, FlightTable.settle]
    · exact (hsound.groups frame.group group hgroup).settle hfits.1.2 fun _ hlost ↦ nomatch hlost
  exact hboth.1

/-- A task that begins on a group keeps the cluster sound, with the name of the group and its own
key for a goal. -/
theorem Sound.begin (h : Sound P keys goals c) {group : Group}
    (hgroup : c.groups[index]? = some group) (node : Nat) (key : String) (purpose : Purpose)
    (hearsToken cancelled : Bool) (deadline : Option Millis) :
    Sound P keys (Function.update goals c.tasks.size (group.name, key))
      (c.begin node index key purpose hearsToken cancelled deadline).2 := by
  have hfound : ∀ {number : Nat} {task : Task},
      (c.begin node index key purpose hearsToken cancelled deadline).2.tasks[number]? = some task →
      c.tasks[number]? = some task ∧ number ≠ c.tasks.size ∨ number = c.tasks.size ∧
        task.frames = [{ node, group := index, key, hearsToken, stage := .asked }] ∧
        task.answer = none := by
    intro number task htask
    simp only [Cluster.begin, Array.getElem?_push] at htask
    split at htask
    · next heq =>
      cases htask
      exact .inr ⟨heq, rfl, rfl⟩
    · next hne => exact .inl ⟨htask, hne⟩
  constructor
  · exact h.groups
  · intro number task htask frame hframe
    rcases hfound htask with ⟨hold, hne⟩ | ⟨rfl, hframes, -⟩
    · rw [Function.update_of_ne hne]
      exact h.frames number task hold frame hframe
    · rw [hframes, List.mem_singleton] at hframe
      subst hframe
      rw [Function.update_self]
      exact ⟨group, hgroup, rfl, rfl, trivial⟩
  · intro number task outcome htask hgot
    rcases hfound htask with ⟨hold, hne⟩ | ⟨-, -, hnone⟩
    · rw [Function.update_of_ne hne]
      exact h.answers number task outcome hold hgot
    · rw [hnone] at hgot
      cases hgot
  · exact h.registry

end Cluster

/-! ## Turns -/

/-- A fetch that ends at once ends with a fault of the peer's own. -/
theorem Cluster.route_own {c : Cluster} {peer name : String} {fault : Fault}
    (h : c.route peer name = .error fault) : fault.isNotFound = false ∧ fault ≠ .cancelled := by
  unfold Cluster.route at h
  split at h
  · cases h
    exact ⟨rfl, by simp⟩
  · split at h
    · cases h
      exact ⟨rfl, by simp⟩
    · cases h

/-- A credible answer of a peer moves the leader on to a stage that fits. -/
theorem Group.Agrees.fetched {keys : Nat → String} {group : Group} (hP : P.Lenient)
    (h : group.Agrees P keys) {key : String} {flight : Nat}
    (hlead : flight < group.flights.flights.size ∧ keys flight = key) {answer : Outcome}
    (hanswer : P.Credible group.name key answer) (now : Millis) :
    group.Grows (group.takeFetched key now answer).2 ∧
      (group.takeFetched key now answer).2.Agrees P keys ∧
      (FrameStage.leading flight (group.takeFetched key now answer).1.errand).Fits P keys
        (group.takeFetched key now answer).2 key := by
  have hkept := group.takeFetched_kept key now answer
  obtain ⟨hagrees, houtcome⟩ := h.takeFetched hP hanswer now
  refine ⟨hkept.grows, hagrees, ?_, ?_⟩
  · rw [hkept.flights]
    exact hlead
  · intro outcome hdone
    rw [hkept.name]
    cases htaken : (group.takeFetched key now answer).1 with
    | done found =>
        rw [htaken] at hdone
        cases hdone
        exact houtcome outcome htaken
    | fallBack fault =>
        rw [htaken] at hdone
        cases hdone

/-- What a turn makes of a frame fits what it makes of its group, and the group still agrees. -/
theorem Cluster.Turn.fits {c : Cluster} {number : Nat} {task : Task} {frame : Frame}
    {group after : Group} {action : Action} {stage : FrameStage} {keys : Nat → String}
    (hP : P.Lenient)
    (h : group.Agrees P keys) (hfits : frame.stage.Fits P keys group frame.key)
    (hinner : c.Innermost number frame group) (hallowed : P.Allows c action)
    (turn : Turn c number task frame group action stage after) :
    group.Grows after ∧ ∃ keys' : Nat → String,
      (∀ flight < group.flights.flights.size, keys' flight = keys flight) ∧
      after.Agrees P keys' ∧ stage.Fits P keys' after frame.key := by
  cases turn with
  | answered outcome after hstage hconsult =>
      have hkept := group.consult_kept frame.key c.now (frame.hearsToken && task.cancelled)
      obtain ⟨hagrees, houtcome⟩ :=
        h.consult hP frame.key c.now (frame.hearsToken && task.cancelled)
      rw [hconsult] at hkept hagrees houtcome
      refine ⟨hkept.grows, keys, fun _ _ ↦ rfl, hagrees, ?_⟩
      show P after.name frame.key outcome
      rw [hkept.name]
      exact houtcome outcome rfl
  | missed after hstage hconsult =>
      have hkept := group.consult_kept frame.key c.now (frame.hearsToken && task.cancelled)
      obtain ⟨hagrees, -⟩ := h.consult hP frame.key c.now (frame.hearsToken && task.cancelled)
      rw [hconsult] at hkept hagrees
      exact ⟨hkept.grows, keys, fun _ _ ↦ rfl, hagrees, trivial⟩
  | joined flight hcontends hmem =>
      obtain ⟨haloft, hkey⟩ := h.records frame.key flight hmem
      exact ⟨⟨rfl, Nat.le_refl _⟩, keys, fun _ _ ↦ rfl, h.join,
        (Array.getElem?_eq_some_iff.1 haloft).1, hkey⟩
  | led hcontends hfree =>
      -- only here a flight gets its key
      refine ⟨⟨rfl, by simp⟩, Function.update keys group.flights.flights.size frame.key, ?_,
        h.lead (Function.update_self _ _ _) ?_, ⟨by simp, Function.update_self _ _ _⟩,
        fun _ hdone ↦ nomatch hdone⟩
      all_goals
        intro flight hlt
        exact Function.update_of_ne (Nat.ne_of_lt hlt) _ _
  | took flight outcome hstage hlanded =>
      rw [hstage] at hfits
      refine ⟨⟨rfl, Nat.le_refl _⟩, keys, fun _ _ ↦ rfl, h, ?_⟩
      have houtcome := h.landed flight outcome hlanded
      -- the key of the flight is the key of the frame that waited on it
      rw [hfits.2] at houtcome
      exact houtcome
  | found flight value tier hstage hpeek =>
      rw [hstage] at hfits
      refine ⟨⟨rfl, Nat.le_refl _⟩, keys, fun _ _ ↦ rfl, h, hfits.1, ?_⟩
      rintro outcome ⟨⟩
      exact h.held frame.key value (Tiered.holds_of_peek hpeek)
  | loads flight node hstage hpeek hnode hhere =>
      rw [hstage] at hfits
      exact ⟨⟨rfl, Nat.le_refl _⟩, keys, fun _ _ ↦ rfl, h, hfits.1, fun _ hdone ↦ nomatch hdone⟩
  | fetches flight node peer hstage hpeek hnode hpick hcarrier =>
      rw [hstage] at hfits
      exact ⟨⟨rfl, Nat.le_refl _⟩, keys, fun _ _ ↦ rfl, h, hfits.1, fun _ hdone ↦ nomatch hdone⟩
  | refused flight node peer sharesToken fault hstage hpeek hnode hpick hcarrier hroute =>
      rw [hstage] at hfits
      obtain ⟨hgrows, hagrees, hfits'⟩ :=
        h.fetched hP hfits.1 (.inr ⟨fault, rfl, Cluster.route_own hroute⟩) c.now
      exact ⟨hgrows, keys, fun _ _ ↦ rfl, hagrees, hfits'⟩
  | landed flight outcome hstage =>
      rw [hstage] at hfits
      have houtcome := hfits.2 outcome rfl
      refine ⟨⟨rfl, ?_⟩, keys, fun _ _ ↦ rfl, ?_, houtcome⟩
      · simp [FlightTable.land, FlightTable.settle]
      · refine h.settle hfits.1.2 ?_
        rintro _ ⟨⟩
        exact houtcome
  | loaded flight answer hstage =>
      rw [hstage] at hfits
      have hkept := group.takeLoaded_kept frame.key c.now answer
      have houtcome := hallowed frame group hinner
      refine ⟨hkept.grows, keys, fun _ _ ↦ rfl, h.takeLoaded houtcome c.now, ?_, ?_⟩
      · rw [hkept.flights]
        exact hfits.1
      · rintro _ ⟨⟩
        rw [hkept.name, group.takeLoaded_outcome]
        exact houtcome
  | fetched flight peer answer hstage =>
      rw [hstage] at hfits
      obtain ⟨hgrows, hagrees, hfits'⟩ :=
        h.fetched hP hfits.1 (hallowed frame group hinner) c.now
      exact ⟨hgrows, keys, fun _ _ ↦ rfl, hagrees, hfits'⟩

/-! ## Moves -/

namespace Cluster

variable {keys : Nat → Nat → String} {goals : Nat → String × String} {c following : Cluster}
  {number : Nat} {task : Task} {action : Action}

/-- Other frames of a task that fit keep the cluster sound. -/
theorem Sound.reframe (h : Sound P keys goals c) {frames : List Frame}
    (hreframes : c.Reframes number following frames) (hgroups : following.groups = c.groups)
    (hframes : ∀ frame ∈ frames, frame.Fits P keys c (goals number)) :
    Sound P keys goals following := by
  refine h.retask hreframes hgroups (fun _ _ ↦ hframes) ?_
  intro found outcome hfound hgot
  exact h.answers number found outcome hfound hgot

/-- A later state of a group that agrees, and other frames of a task that fit it, keep the cluster
sound. -/
theorem Sound.replace (h : Sound P keys goals c) {index : Nat} {group after : Group}
    (hgroup : c.groups[index]? = some group) (hgrows : group.Grows after) {inside : Nat → String}
    (hinside : ∀ flight < group.flights.flights.size, inside flight = keys index flight)
    (hagrees : after.Agrees P inside) {frames : List Frame}
    (hreframes : c.Reframes number following frames)
    (hgroups : following.groups = c.groups.setIfInBounds index after)
    (hframes : ∀ keys', keys' index = inside → Sound P keys' goals (c.setGroup index after) →
      ∀ frame ∈ frames, frame.Fits P keys' (c.setGroup index after) (goals number)) :
    ∃ keys', Sound P keys' goals following := by
  have hregroup : Sound P (Function.update keys index inside) goals (c.setGroup index after) := by
    refine h.regroup hgroup hgrows ?_ ?_
    · intro other found flight hfound hlt
      by_cases heq : other = index
      · subst heq
        rw [hgroup] at hfound
        cases hfound
        rw [Function.update_self]
        exact hinside flight hlt
      · rw [Function.update_of_ne heq]
    · rw [Function.update_self]
      exact hagrees
  refine ⟨_, hregroup.reframe ⟨hreframes.tasks, hreframes.nodes, hreframes.now⟩ hgroups ?_⟩
  exact hframes _ (Function.update_self _ _ _) hregroup

/-- The group of a frame, with what it means for its stage. -/
theorem Sound.fits (h : Sound P keys goals c) (htask : c.tasks[number]? = some task)
    {frame : Frame} (hmem : frame ∈ task.frames) {group : Group}
    (hgroup : c.groups[frame.group]? = some group) :
    group.name = (goals number).1 ∧ frame.key = (goals number).2 ∧
      frame.stage.Fits P (keys frame.group) group frame.key := by
  obtain ⟨found, hfound, hfits⟩ := h.frames number task htask frame hmem
  rw [hgroup] at hfound
  cases hfound
  exact hfits

/-- A frame with another stage that fits its group after a change. -/
theorem fits_setGroup {frame : Frame} {group after : Group} {stage : FrameStage}
    {goal : String × String} (hgroup : c.groups[frame.group]? = some group)
    (hname : after.name = goal.1) (hkey : frame.key = goal.2)
    (hfits : stage.Fits P (keys frame.group) after frame.key) :
    { frame with stage }.Fits P keys (c.setGroup frame.group after) goal := by
  refine ⟨after, ?_, hname, hkey, hfits⟩
  show (c.groups.setIfInBounds frame.group after)[frame.group]? = some after
  exact Array.getElem?_setIfInBounds_self_of_lt (Array.getElem?_eq_some_iff.1 hgroup).1

/-- A leader that takes a credible answer of a peer in keeps the cluster sound. -/
theorem Sound.fetched (hP : P.Lenient) (h : Sound P keys goals c)
    (htask : c.tasks[number]? = some task) {frame : Frame} (hmem : frame ∈ task.frames)
    {group : Group} (hgroup : c.groups[frame.group]? = some group) {flight : Nat} {peer : String}
    (hstage : frame.stage = .leading flight (.fetching peer)) {answer : Outcome}
    (hanswer : P.Credible group.name frame.key answer) {now : Millis} {outer : List Frame}
    (houter : ∀ other ∈ outer, other ∈ task.frames)
    (hreframes : c.Reframes number following
      ({ frame with
          stage := .leading flight (group.takeFetched frame.key now answer).1.errand } ::
        outer))
    (hgroups : following.groups = c.groups.setIfInBounds frame.group
      (group.takeFetched frame.key now answer).2) :
    ∃ keys', Sound P keys' goals following := by
  obtain ⟨hname, hkey, hfits⟩ := h.fits htask hmem hgroup
  rw [hstage] at hfits
  obtain ⟨hgrows, hagrees, hfits'⟩ :=
    (h.groups frame.group group hgroup).fetched hP hfits.1 hanswer now
  refine h.replace hgroup hgrows (fun _ _ ↦ rfl) hagrees hreframes hgroups ?_
  intro keys' hinside hsound other hother
  rcases List.mem_cons.1 hother with rfl | hother
  · exact fits_setGroup hgroup (hgrows.name.trans hname) hkey (hinside ▸ hfits')
  · exact hsound.frames number task htask other (houter other hother)

/-- A fetch that reaches a node reaches the group of the name. -/
theorem Sound.route_name (h : Sound P keys goals c) {peer name : String} {node target : Nat}
    (hroute : c.route peer name = .ok (node, target)) :
    ∃ group, c.groups[target]? = some group ∧ group.name = name := by
  unfold route at hroute
  split at hroute
  · cases hroute
  · next found _ =>
    split at hroute
    · cases hroute
    · next index hindex =>
      cases hroute
      obtain ⟨reached, hreached, hlookup⟩ := Option.bind_eq_some_iff.1 hindex
      exact h.registry node reached name target hreached (mem_of_lookup hlookup)

/-- A task that has its response at once keeps the cluster sound. -/
theorem Sound.respond (h : Sound P keys goals c) (response : Http.Response) :
    Sound P keys goals (c.respond response).2 := by
  have hfound : ∀ {number : Nat} {task : Task}, (c.respond response).2.tasks[number]? = some task →
      c.tasks[number]? = some task ∨ task.frames = [] ∧ task.answer = some (.served response) := by
    intro number task htask
    simp only [Cluster.respond, Array.getElem?_push] at htask
    split at htask
    · cases htask
      exact .inr ⟨rfl, rfl⟩
    · exact .inl htask
  refine ⟨h.groups, ?_, ?_, h.registry⟩
  · intro number task htask frame hframe
    rcases hfound htask with hold | ⟨hframes, -⟩
    · exact h.frames number task hold frame hframe
    · rw [hframes] at hframe
      cases hframe
  · intro number task outcome htask hgot
    rcases hfound htask with hold | ⟨-, hserved⟩
    · exact h.answers number task outcome hold hgot
    · rw [hserved] at hgot
      cases hgot

/-- A group that is made keeps the cluster sound. -/
theorem Sound.create (h : Sound P keys goals c) (node : Nat) {name : String}
    {settings : GroupSettings}
    (hshielded : settings.fallbackToLocal = true ∨ ∀ key fault, P name key (.error fault)) :
    Sound P keys goals
      ({ c with groups := c.groups.push (.create name settings) }.modifyNode node fun n ↦
        { n with registry := register name c.groups.size n.registry }) := by
  have hkept : ∀ {index : Nat} {group : Group}, c.groups[index]? = some group →
      (c.groups.push (.create name settings))[index]? = some group := by
    intro index group hgroup
    rw [Array.getElem?_push,
      if_neg (Nat.ne_of_lt (Array.getElem?_eq_some_iff.1 hgroup).1), hgroup]
  have hregistered : ∀ {number : Nat} {other : String},
      (∃ group, c.groups[number]? = some group ∧ group.name = other) →
      ∃ group, (c.groups.push (.create name settings))[number]? = some group ∧
        group.name = other :=
    fun ⟨group, hgroup, hname⟩ ↦ ⟨group, hkept hgroup, hname⟩
  refine ⟨?_, ?_, h.answers, ?_⟩
  · intro index group hgroup
    simp only [modifyNode, Array.getElem?_push] at hgroup
    split at hgroup
    · cases hgroup
      exact Group.agrees_create name settings hshielded
    · exact h.groups index group hgroup
  · intro number task htask frame hframe
    obtain ⟨group, hgroup, hfits⟩ := h.frames number task htask frame hframe
    exact ⟨group, hkept hgroup, hfits⟩
  · intro index found other number hfound hentry
    rcases cases_modifyNode hfound with ⟨before, hbefore, rfl⟩ | hfound
    · rcases mem_register hentry with hnew | hold
      · cases hnew
        exact ⟨.create name settings, Array.getElem?_push_size, rfl⟩
      · exact hregistered (h.registry index before other number hbefore hold)
    · exact hregistered (h.registry index found other number hfound hentry)

/-- A key that is forwarded to another node keeps the cluster sound: the group there has the name
that was asked for. -/
theorem Sound.forwarded (h : Sound P keys goals c) (htask : c.tasks[number]? = some task)
    {frame : Frame} {outer : List Frame} (hframes : task.frames = frame :: outer)
    {group served : Group} (hgroup : c.groups[frame.group]? = some group) {flight : Nat}
    (hstage : frame.stage = .leading flight .recheck) {peer : String} {node target : Nat}
    (hroute : c.route peer group.name = .ok (node, target))
    (hserved : c.groups[target]? = some served) {hearsToken : Bool}
    (hreframes : c.Reframes number following
      ({ node, group := target, key := frame.key, hearsToken, stage := .asked } ::
        { frame with stage := .leading flight (.fetching peer) } :: outer))
    (hgroups : following.groups = c.groups.setIfInBounds target served.recordServerRequest) :
    ∃ keys', Sound P keys' goals following := by
  obtain ⟨hname, hkey, hfits⟩ := h.fits htask (hframes ▸ List.mem_cons_self) hgroup
  rw [hstage] at hfits
  -- the registry of the node that is reached names the group that was asked for
  have hserves : served.name = group.name := by
    obtain ⟨found, hfound, hfoundName⟩ := h.route_name hroute
    rw [hserved] at hfound
    cases hfound
    exact hfoundName
  have hagrees : served.recordServerRequest.Agrees P (keys target) :=
    (h.groups target served hserved).count _
  have hgrows : served.Grows served.recordServerRequest := ⟨rfl, Nat.le_refl _⟩
  refine h.replace hserved hgrows (fun _ _ ↦ rfl) hagrees hreframes hgroups ?_
  intro keys' _ hsound other hother
  rcases List.mem_cons.1 hother with rfl | hother
  · exact ⟨served.recordServerRequest,
      Array.getElem?_setIfInBounds_self_of_lt (Array.getElem?_eq_some_iff.1 hserved).1,
      hserves.trans hname, hkey, trivial⟩
  · rcases List.mem_cons.1 hother with rfl | hother
    · obtain ⟨later, hlater, hlaterName, -, hlaterFits⟩ :=
        hsound.frames number task htask frame (hframes ▸ List.mem_cons_self)
      rw [hstage] at hlaterFits
      exact ⟨later, hlater, hlaterName, hkey, hlaterFits.1, fun _ hdone ↦ nomatch hdone⟩
    · exact hsound.frames number task htask other (hframes ▸ List.mem_cons_of_mem _ hother)

/-- A turn of a task keeps the cluster sound. -/
theorem Sound.turn (hP : P.Lenient) (h : Sound P keys goals c) (hallowed : P.Allows c action)
    (htask : c.tasks[number]? = some task) {frame : Frame} {outer : List Frame}
    (hframes : task.frames = frame :: outer) {group after : Group}
    (hgroup : c.groups[frame.group]? = some group) {stage : FrameStage}
    (turn : Turn c number task frame group action stage after)
    (hreframes : c.Reframes number following ({ frame with stage } :: outer))
    (hgroups : following.groups = c.groups.setIfInBounds frame.group after) :
    ∃ keys', Sound P keys' goals following := by
  obtain ⟨hname, hkey, hfits⟩ := h.fits htask (hframes ▸ List.mem_cons_self) hgroup
  obtain ⟨hgrows, inside, hinside, hagrees, hfits'⟩ :=
    turn.fits hP (h.groups frame.group group hgroup) hfits ⟨task, outer, htask, hframes, hgroup⟩
      hallowed
  refine h.replace hgroup hgrows hinside hagrees hreframes hgroups ?_
  intro keys' heq hsound other hother
  rcases List.mem_cons.1 hother with rfl | hother
  · exact fits_setGroup hgroup (hgrows.name.trans hname) hkey (heq ▸ hfits')
  · exact hsound.frames number task htask other (hframes ▸ List.mem_cons_of_mem _ hother)

/-- An outcome that is handed to the fetch above keeps the cluster sound: the task has one goal. -/
theorem Sound.handed (hP : P.Lenient) (h : Sound P keys goals c)
    (htask : c.tasks[number]? = some task) {frame parent : Frame} {outer : List Frame}
    (hframes : task.frames = frame :: parent :: outer) {outcome : Outcome}
    (hstage : frame.stage = .answered outcome) {flight : Nat} {peer : String}
    (hparent : parent.stage = .leading flight (.fetching peer)) {group : Group}
    (hgroup : c.groups[parent.group]? = some group) {now : Millis}
    (hreframes : c.Reframes number following
      ({ parent with
          stage := .leading flight (group.takeFetched parent.key now outcome).1.errand } ::
        outer))
    (hgroups : following.groups = c.groups.setIfInBounds parent.group
      (group.takeFetched parent.key now outcome).2) :
    ∃ keys', Sound P keys' goals following := by
  have hmem : parent ∈ task.frames := hframes ▸ List.mem_cons_of_mem _ List.mem_cons_self
  obtain ⟨hname, hkey, -⟩ := h.fits htask hmem hgroup
  obtain ⟨inner, -, hname', hkey', hfits⟩ :=
    h.frames number task htask frame (hframes ▸ List.mem_cons_self)
  -- both frames are for the goal of the task, so what fits the one fits the other
  have houtcome : P group.name parent.key outcome := by
    rw [hstage] at hfits
    rw [hname, hkey, ← hname', ← hkey']
    exact hfits
  refine h.fetched hP htask hmem hgroup hparent (.inl houtcome) ?_ hreframes hgroups
  intro other hother
  rw [hframes]
  exact List.mem_cons_of_mem _ (List.mem_cons_of_mem _ hother)

/-- A frame that notices its token keeps the cluster sound. -/
theorem Sound.heeded (hP : P.Lenient) (h : Sound P keys goals c)
    (htask : c.tasks[number]? = some task) {depth : Nat} {frame : Frame}
    (hframe : task.frames[depth]? = some frame)
    (hreframes : c.Reframes number following
      ({ frame with stage := .answered (.error .cancelled) } :: task.frames.drop (depth + 1)))
    (hgroups : following.groups = (c.abandon (task.frames.take (depth + 1))).groups) :
    Sound P keys goals following := by
  have habandoned : Sound P keys goals (c.abandon (task.frames.take (depth + 1))) :=
    h.abandon htask fun _ hmem ↦ List.mem_of_mem_take hmem
  have htask' : (c.abandon (task.frames.take (depth + 1))).tasks[number]? = some task := by
    rw [tasks_abandon, htask]
  refine habandoned.reframe (hreframes.of_abandon _) hgroups ?_
  intro other hother
  rcases List.mem_cons.1 hother with rfl | hother
  · obtain ⟨found, hfound, hname, hkey, -⟩ :=
      habandoned.frames number task htask' frame (List.mem_of_getElem? hframe)
    exact ⟨found, hfound, hname, hkey, hP.cancelled _ _⟩
  · exact habandoned.frames number task htask' other (List.mem_of_mem_drop hother)

/-- Every move keeps a cluster sound, and the tasks there were keep their goals. -/
theorem Sound.move (hP : P.Lenient) (h : Sound P keys goals c) (hallowed : P.Allows c action)
    (move : Move c action following) :
    ∃ keys' goals', Sound P keys' goals' following ∧
      ∀ number < c.tasks.size, goals' number = goals number := by
  have hsame : (∃ keys', Sound P keys' goals following) →
      ∃ keys' goals', Sound P keys' goals' following ∧
        ∀ number < c.tasks.size, goals' number = goals number :=
    fun ⟨keys', hsound⟩ ↦ ⟨keys', goals, hsound, fun _ _ ↦ rfl⟩
  cases move with
  | turned number task frame outer group _ stage after following htask hframes hgroup hturn
      hreframes hgroups =>
      exact hsame (h.turn hP hallowed htask hframes hgroup hturn hreframes hgroups)
  | forwarded number task frame outer group served flight home peer sharesToken node target
      following htask hframes hgroup hstage hpeek hhome hpick hcarrier hroute hserved hreframes
      hgroups =>
      exact hsame (h.forwarded htask hframes hgroup hstage hroute hserved hreframes hgroups)
  | handed number task frame parent outer group outcome flight peer following htask hframes
      hstage hparent hgroup hreframes hgroups =>
      exact hsame (h.handed hP htask hframes hstage hparent hgroup hreframes hgroups)
  | popped number task frame outer outcome following htask hframes hstage hreframes hgroups =>
      refine hsame ⟨keys, h.reframe hreframes hgroups ?_⟩
      intro found hfound
      exact h.frames number task htask found (hframes ▸ List.mem_cons_of_mem _ hfound)
  | finished number task frame outcome following htask hframes hstage hretasks hgroups =>
      refine hsame ⟨keys, h.ended htask hretasks hgroups rfl ?_⟩
      intro found hgot
      obtain ⟨inner, -, hname, hkey, hfits⟩ :=
        h.frames number task htask frame (hframes ▸ List.mem_cons_self)
      rw [hstage] at hfits
      rw [(Purpose.eq_of_answer (Option.some.inj hgot)).2, ← hname, ← hkey]
      exact hfits
  | heeded number depth task frame following htask hframe hcancelled hhears hawaits hreframes
      hgroups =>
      exact hsame ⟨keys, h.heeded hP htask hframe hreframes hgroups⟩
  | brokeOff number depth reason task frame flight peer group following htask hframe hstage hgroup
      hreframes hgroups =>
      have habandoned : Sound P keys goals (c.abandon (task.frames.take (depth + 1))) :=
        h.abandon htask fun _ hmem ↦ List.mem_of_mem_take hmem
      have htask' : (c.abandon (task.frames.take (depth + 1))).tasks[number]? = some task := by
        rw [tasks_abandon, htask]
      exact hsame (habandoned.fetched hP htask' (List.mem_of_getElem? hframe) hgroup hstage
        (.inr ⟨_, rfl, rfl, by simp⟩) (fun _ hmem ↦ List.mem_of_mem_drop hmem)
        (hreframes.of_abandon _) hgroups)
  | expired number task deadline following htask hpending hdeadline hdue hretasks hgroups =>
      have habandoned : Sound P keys goals (c.abandon task.frames) :=
        h.abandon htask fun _ hmem ↦ hmem
      refine hsame ⟨keys, habandoned.ended (by rw [tasks_abandon, htask])
        (hretasks.of_abandon task.frames) hgroups rfl ?_⟩
      intro found hgot
      rw [(Purpose.eq_of_answer (Option.some.inj hgot)).2]
      exact hP.cancelled _ _
  | dropped number task following htask hpending hretasks hgroups =>
      have habandoned : Sound P keys goals (c.abandon task.frames) :=
        h.abandon htask fun _ hmem ↦ hmem
      have htask' : (c.abandon task.frames).tasks[number]? = some task := by
        rw [tasks_abandon, htask]
      refine hsame ⟨keys, habandoned.ended htask' (hretasks.of_abandon task.frames) hgroups rfl ?_⟩
      exact fun outcome ↦ habandoned.answers number task outcome htask'
  | fired number =>
      have hretasks : c.Retasks number (c.cancel number) fun t ↦ { t with cancelled := true } :=
        ⟨rfl, rfl, rfl⟩
      refine hsame ⟨keys, h.retask hretasks rfl ?_ ?_⟩
      · exact fun task htask ↦ h.frames number task htask
      · exact fun task outcome htask ↦ h.answers number task outcome htask
  | asked node index key hearsToken cancelled timeout group hgroup =>
      refine ⟨keys, _, h.begin hgroup node key .get hearsToken cancelled _, ?_⟩
      intro number hlt
      exact Function.update_of_ne (Nat.ne_of_lt hlt) _ _
  | requested node method path name key index group deadline hgroup =>
      have hcounted : Sound P keys goals (c.setGroup index group.recordServerRequest) :=
        h.regroup hgroup ⟨rfl, Nat.le_refl _⟩ (fun _ _ _ _ _ ↦ rfl)
          ((h.groups index group hgroup).count _)
      have hgroup' : (c.setGroup index group.recordServerRequest).groups[index]? =
          some group.recordServerRequest :=
        Array.getElem?_setIfInBounds_self_of_lt (Array.getElem?_eq_some_iff.1 hgroup).1
      refine ⟨keys, _, hcounted.begin hgroup' node key (.serve name key) false false deadline, ?_⟩
      intro number hlt
      exact Function.update_of_ne (Nat.ne_of_lt hlt) _ _
  | responded node method path response => exact hsame ⟨keys, h.respond response⟩
  | removed index key group hgroup =>
      exact hsame ⟨keys, h.regroup hgroup (group.remove_kept key).grows (fun _ _ _ _ _ ↦ rfl)
        ((h.groups index group hgroup).remove key)⟩
  | cleared index group hgroup =>
      exact hsame ⟨keys, h.regroup hgroup ⟨rfl, Nat.le_refl _⟩ (fun _ _ _ _ _ ↦ rfl)
        (h.groups index group hgroup).clear⟩
  | added membership carrier basePath requestTimeout =>
      refine hsame ⟨keys, h.around rfl rfl ?_⟩
      intro index node name number hnode hentry
      rcases cases_addNode hnode with rfl | hnode
      · cases hentry
      · exact h.registry index node name number hnode hentry
  | created node name settings => exact hsame ⟨keys, h.create node hallowed⟩
  | rewired _ node change hchange =>
      refine hsame ⟨keys, h.around rfl rfl ?_⟩
      intro index found name number hfound hentry
      rcases cases_modifyNode hfound with ⟨before, hbefore, rfl⟩ | hfound
      · exact h.registry index before name number hbefore ((hchange before).2.2 _ hentry)
      · exact h.registry index found name number hfound hentry
  | stayed _ _ hgroups htasks hnodes =>
      refine hsame ⟨keys, h.around htasks hgroups ?_⟩
      rw [hnodes]
      exact h.registry

/-! ## Runs -/

/-- What is allowed may be allowed more widely. -/
theorem Runs.mono {allowed wider : Cluster → Action → Prop} {c last : Cluster}
    (run : Runs allowed c last) (hwider : ∀ c action, allowed c action → wider c action) :
    Runs wider c last := by
  induction run with
  | here => exact .here
  | next _ hallowed hact ih => exact ih.next (hwider _ _ hallowed) hact

/-- A run goes on with actions that are allowed at all times. -/
theorem Runs.actAll {allowed : Cluster → Action → Prop} {c middle last : Cluster}
    (run : Runs allowed c middle) {actions : List Action}
    (hallowed : ∀ action ∈ actions, ∀ c, allowed c action)
    (hact : middle.actAll? actions = some last) : Runs allowed c last := by
  induction actions generalizing middle with
  | nil =>
      cases hact
      exact run
  | cons action rest ih =>
      obtain ⟨next, hnext, hrest⟩ := Option.bind_eq_some_iff.1 hact
      refine ih (run.next (hallowed action List.mem_cons_self middle) hnext) ?_ hrest
      exact fun other hother ↦ hallowed other (List.mem_cons_of_mem _ hother)

/-- Several actions can happen one after the other, and are allowed. -/
def complies (allowed : Cluster → Action → Prop) [∀ c action, Decidable (allowed c action)]
    (c : Cluster) : List Action → Bool
  | [] => true
  | action :: rest =>
      decide (allowed c action) && (c.act? action).any fun next ↦ next.complies allowed rest

/-- A run goes on with actions that are allowed when they happen. -/
theorem Runs.complying {allowed : Cluster → Action → Prop}
    [∀ c action, Decidable (allowed c action)] {c middle last : Cluster}
    (run : Runs allowed c middle) {actions : List Action}
    (hcomplies : middle.complies allowed actions = true)
    (hact : middle.actAll? actions = some last) : Runs allowed c last := by
  induction actions generalizing middle with
  | nil =>
      cases hact
      exact run
  | cons action rest ih =>
      obtain ⟨next, hnext, hrest⟩ := Option.bind_eq_some_iff.1 hact
      rw [complies, hnext, Option.any_some, Bool.and_eq_true, decide_eq_true_eq] at hcomplies
      exact ih (run.next hcomplies.1 hnext) hcomplies.2 hrest

/-- A run lets every task go on, whatever is allowed. -/
theorem Runs.continues {allowed : Cluster → Action → Prop} {c last : Cluster}
    (run : Runs allowed c last) {number : Nat} {task : Task}
    (htask : c.tasks[number]? = some task) (hunanswered : task.answer = none) :
    ∃ after, last.tasks[number]? = some after ∧ after.purpose = task.purpose ∧
      after.deadline = task.deadline ∧ ∀ answer, after.answer = some answer → ∃ now outcome,
        answer = task.purpose.answer now outcome := by
  induction run with
  | here => exact ⟨task, htask, rfl, rfl, fun _ h ↦ nomatch hunanswered ▸ h⟩
  | next run hmay hact ih =>
      obtain ⟨middle, hmiddle, hpurpose, hdeadline, hanswer⟩ := ih
      obtain ⟨after, hafter, hcontinues⟩ := (act?_move hact).continues hmiddle
      refine ⟨after, hafter, hcontinues.purpose.trans hpurpose,
        hcontinues.deadline.trans hdeadline, ?_⟩
      intro answer hanswered
      rcases hcontinues.answer with hsame | ⟨outcome, hnew⟩
      · exact hanswer answer (hsame ▸ hanswered)
      · rw [hnew] at hanswered
        cases hanswered
        exact ⟨_, outcome, by rw [hpurpose]⟩

/-- A cluster without nodes is sound. -/
theorem sound_empty (P : Verdict) (keys : Nat → Nat → String) (goals : Nat → String × String) :
    Sound P keys goals empty :=
  ⟨by simp [empty], by simp [empty], by simp [empty], by simp [empty]⟩

/-- Every run keeps a cluster sound, and the tasks there were keep their goals. -/
theorem Runs.sound (hP : P.Lenient) {allowed : Cluster → Action → Prop}
    (hallowed : ∀ c action, allowed c action → P.Allows c action) (h : Sound P keys goals c)
    (run : Runs allowed c following) :
    ∃ keys' goals', Sound P keys' goals' following ∧ c.tasks.size ≤ following.tasks.size ∧
      ∀ number < c.tasks.size, goals' number = goals number := by
  induction run with
  | here => exact ⟨keys, goals, h, Nat.le_refl _, fun _ _ ↦ rfl⟩
  | next run hmay hact ih =>
      obtain ⟨keys', goals', hsound, hsize, hgoals⟩ := ih
      obtain ⟨keys'', goals'', hsound', hgoals'⟩ :=
        hsound.move hP (hallowed _ _ hmay) (act?_move hact)
      refine ⟨keys'', goals'', hsound', ?_, ?_⟩
      · exact Nat.le_trans hsize (act?_move hact).size_le
      · intro number hlt
        exact (hgoals' number (Nat.lt_of_lt_of_le hlt hsize)).trans (hgoals number hlt)

/-- The verdict that lets everything through. -/
def anyOutcome : Verdict := fun _ _ _ ↦ True

theorem lenient_anyOutcome : anyOutcome.Lenient :=
  ⟨fun _ _ ↦ trivial, fun _ _ _ _ ↦ trivial⟩

theorem allows_anyOutcome (c : Cluster) (action : Action) : anyOutcome.Allows c action := by
  cases action with
  | create => exact .inr fun _ _ ↦ trivial
  | answerLoad => exact fun _ _ _ ↦ trivial
  | answerFetch => exact fun _ _ _ ↦ .inl trivial
  | _ => trivial

/-- In every cluster that a run leads to, each flight is for one key. -/
theorem Runs.keyed {allowed : Cluster → Action → Prop} (run : Runs allowed empty c) :
    ∃ keys goals, Sound anyOutcome keys goals c := by
  obtain ⟨keys, goals, hsound, -⟩ := run.sound lenient_anyOutcome
    (fun c action _ ↦ allows_anyOutcome c action)
    (sound_empty anyOutcome (fun _ _ ↦ "") fun _ ↦ ("", ""))
  exact ⟨keys, goals, hsound⟩

end Cluster

end ReadThrough
