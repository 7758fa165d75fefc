import ReadThrough.Cluster.Action
import ReadThrough.Proofs.Flight.Table

/-!
# What one action does to a cluster

`Turn` lists what becomes of the innermost frame of a task and of its group, `Move` everything that
an action can do to the groups, the tasks and the nodes of a cluster, and `act?_move` says that
there is nothing else. Invariants of clusters are proved by the cases of `Move` alone.
-/

namespace ReadThrough

/-- What a leader is at after a peer answered. -/
def Group.Fetched.errand : Group.Fetched → Errand
  | .done outcome => .done outcome
  | .fallBack _ => .loading

/-- A leader whose fetch came to an outcome is done with that. -/
theorem Group.Fetched.eq_of_errand {taken : Group.Fetched} {outcome : Outcome}
    (h : taken.errand = .done outcome) : taken = .done outcome := by
  cases taken with
  | done found =>
      cases h
      rfl
  | fallBack fault => cases h

/-- The answer that a task gets for an outcome. -/
def Purpose.answer (now : Millis) (outcome : Outcome) : Purpose → Answer
  | .get => .got outcome
  | .serve _ _ => .served (.served now outcome)

/-- The answer of a get is the outcome that it came to. -/
theorem Purpose.eq_of_answer {purpose : Purpose} {now : Millis} {outcome found : Outcome}
    (h : purpose.answer now outcome = .got found) : purpose = .get ∧ found = outcome := by
  cases purpose with
  | get =>
      cases h
      exact ⟨rfl, rfl⟩
  | serve name key => cases h

namespace Cluster

/-! ## Parts of a transition -/

section

variable (c : Cluster) (number : Nat)

@[simp] theorem tasks_setGroup (group : Group) : (c.setGroup number group).tasks = c.tasks := rfl

@[simp] theorem groups_setGroup (group : Group) :
    (c.setGroup number group).groups = c.groups.setIfInBounds number group := rfl

/-- A cluster that differs from another one at most in its groups and events, and in one task. -/
structure Retasks (following : Cluster) (change : Task → Task) : Prop where
  tasks : following.tasks = c.tasks.modify number change
  nodes : following.nodes = c.nodes
  now : following.now = c.now

/-- A cluster that differs from another one at most in its groups and events, and in the frames of
one task. -/
abbrev Reframes (following : Cluster) (frames : List Frame) : Prop :=
  c.Retasks number following fun task ↦ { task with frames }

end

/-- Putting back what is there changes nothing. -/
theorem setIfInBounds_same {α : Type} {items : Array α} {index : Nat} {item : α}
    (h : items[index]? = some item) : items.setIfInBounds index item = items := by
  apply Array.ext_getElem?
  intro other
  rw [Array.getElem?_setIfInBounds]
  split
  · next heq =>
    subst heq
    rw [if_pos (Array.getElem?_eq_some_iff.1 h).1, h]
  · rfl

/-- What is found after something was put at the end is new, or was there before. -/
theorem cases_push {α : Type} {items : Array α} {index : Nat} {item found : α}
    (h : (items.push item)[index]? = some found) : found = item ∨ items[index]? = some found := by
  rw [Array.getElem?_push] at h
  split at h
  · cases h
    exact .inl rfl
  · exact .inr h

/-- A node that is found after one was added is the new one, or was there before. -/
theorem cases_addNode {c : Cluster} {node found : Node} {index : Nat}
    (h : (c.addNode node).nodes[index]? = some found) :
    found = node ∨ c.nodes[index]? = some found :=
  cases_push h

/-- A node that is found after a change of one is the changed one, or was there before. -/
theorem cases_modifyNode {c : Cluster} {node index : Nat} {change : Node → Node} {found : Node}
    (h : (c.modifyNode node change).nodes[index]? = some found) :
    (∃ before, c.nodes[index]? = some before ∧ found = change before) ∨
      c.nodes[index]? = some found := by
  simp only [modifyNode, Array.getElem?_modify] at h
  split at h
  · obtain ⟨before, hbefore, rfl⟩ := Option.map_eq_some_iff.1 h
    exact .inl ⟨before, hbefore, rfl⟩
  · exact .inr h

/-- Taking in the answer of a peer moves the leader on. -/
theorem takeFetched_spec (c : Cluster) (number : Nat) (frame : Frame) (outer : List Frame)
    (group : Group) (flight : Nat) (peer : String) (answer : Outcome) :
    let taken := group.takeFetched frame.key c.now answer
    let following := c.takeFetched number frame outer group flight peer answer
    c.Reframes number following ({ frame with stage := .leading flight taken.1.errand } :: outer) ∧
      following.groups = c.groups.setIfInBounds frame.group taken.2 := by
  dsimp only
  unfold takeFetched
  split
  · next outcome after htaken =>
    rw [htaken]
    exact ⟨⟨rfl, rfl, rfl⟩, rfl⟩
  · next fault after htaken =>
    rw [htaken]
    exact ⟨⟨rfl, rfl, rfl⟩, rfl⟩

/-- Finishing gives a task its answer and leaves the rest alone. -/
theorem finish_spec {c : Cluster} {number : Nat} {task : Task} (outcome : Outcome)
    (htask : c.tasks[number]? = some task) :
    (c.Retasks number (c.finish number outcome) fun t ↦
      { t with answer := some (task.purpose.answer c.now outcome), frames := [] }) ∧
      (c.finish number outcome).groups = c.groups := by
  unfold finish
  rw [htask]
  dsimp only
  cases hpurpose : task.purpose with
  | get => exact ⟨⟨rfl, rfl, rfl⟩, rfl⟩
  | serve name key =>
      cases outcome with
      | ok value => exact ⟨⟨rfl, rfl, rfl⟩, rfl⟩
      | error fault =>
          dsimp only
          split <;> exact ⟨⟨rfl, rfl, rfl⟩, rfl⟩

/-- What holds before frames are abandoned, and is kept by every flight that is lost, holds
afterwards. -/
theorem abandon_induction {P : Cluster → Prop} {c : Cluster} {frames : List Frame} (h : P c)
    (hlose : ∀ (c : Cluster) (frame : Frame) (flight : Nat) (errand : Errand) (group : Group),
      P c → frame ∈ frames → frame.stage = .leading flight errand →
      c.groups[frame.group]? = some group →
      P (c.setGroup frame.group { group with flights := group.flights.lose frame.key flight })) :
    P (c.abandon frames) := by
  unfold abandon
  induction frames generalizing c with
  | nil => exact h
  | cons frame rest ih =>
      rw [List.foldl_cons]
      refine ih ?_ fun c other flight errand group hc hmem ↦
        hlose c other flight errand group hc (List.mem_cons_of_mem _ hmem)
      split
      · next flight errand group hstage hgroup =>
        exact hlose c frame flight errand group h List.mem_cons_self hstage hgroup
      · exact h

@[simp] theorem tasks_abandon (c : Cluster) (frames : List Frame) :
    (c.abandon frames).tasks = c.tasks :=
  abandon_induction (P := fun left ↦ left.tasks = c.tasks) rfl fun _ _ _ _ _ h _ _ _ ↦ h

@[simp] theorem nodes_abandon (c : Cluster) (frames : List Frame) :
    (c.abandon frames).nodes = c.nodes :=
  abandon_induction (P := fun left ↦ left.nodes = c.nodes) rfl fun _ _ _ _ _ h _ _ _ ↦ h

@[simp] theorem now_abandon (c : Cluster) (frames : List Frame) :
    (c.abandon frames).now = c.now :=
  abandon_induction (P := fun left ↦ left.now = c.now) rfl fun _ _ _ _ _ h _ _ _ ↦ h

/-- Abandoning frames changes the flights of groups and nothing else about them. -/
theorem group_of_abandon {c : Cluster} {frames : List Frame} {index : Nat} {after : Group}
    (h : (c.abandon frames).groups[index]? = some after) :
    ∃ group flights, c.groups[index]? = some group ∧ after = { group with flights } := by
  have hall : ∀ (index : Nat) (after : Group), (c.abandon frames).groups[index]? = some after →
      ∃ group flights, c.groups[index]? = some group ∧ after = { group with flights } := by
    refine abandon_induction (P := fun left ↦ ∀ (index : Nat) (after : Group),
      left.groups[index]? = some after →
        ∃ group flights, c.groups[index]? = some group ∧ after = { group with flights })
      (fun _ after h ↦ ⟨after, after.flights, h, rfl⟩) ?_
    intro left frame flight errand group hleft _ _ hgroup index after hafter
    rw [groups_setGroup, Array.getElem?_setIfInBounds] at hafter
    split at hafter
    · next heq =>
      subst heq
      split at hafter
      · cases hafter
        obtain ⟨before, flights, hbefore, rfl⟩ := hleft frame.group group hgroup
        exact ⟨before, _, hbefore, rfl⟩
      · cases hafter
    · exact hleft index after hafter
  exact hall index after h

/-- A change of one task after frames were abandoned is one of the task before. -/
theorem Retasks.of_abandon {c following : Cluster} {number : Nat} {change : Task → Task}
    (h : c.Retasks number following change) (frames : List Frame) :
    (c.abandon frames).Retasks number following change := by
  obtain ⟨htasks, hnodes, hnow⟩ := h
  exact ⟨by rw [tasks_abandon, htasks], by rw [nodes_abandon, hnodes], by rw [now_abandon, hnow]⟩

/-- What a registry holds after a name was put into it. -/
theorem mem_register {name : String} {number : Nat} {entry : String × Nat}
    {registry : List (String × Nat)} (h : entry ∈ register name number registry) :
    entry = (name, number) ∨ entry ∈ registry := by
  induction registry with
  | nil => exact .inl (List.mem_singleton.1 h)
  | cons first rest ih =>
      unfold register at h
      split at h
      · exact List.mem_cons.1 h
      · rcases List.mem_cons.1 h with rfl | h
        · exact .inr List.mem_cons_self
        · exact (ih h).imp_right (List.mem_cons_of_mem _)

/-! ## Turns of the innermost frame -/

/-- A frame is about to ask the flight table: its group does not know the key, or the flight that
it waited on was lost. -/
def Contends (frame : Frame) (group : Group) : Prop :=
  frame.stage = .missed ∨
    ∃ flight, frame.stage = .waiting flight ∧ group.flights.status flight = .lost

/-- What becomes of the innermost frame of a task and of its group. -/
inductive Turn (c : Cluster) (number : Nat) (task : Task) (frame : Frame) (group : Group) :
    Action → FrameStage → Group → Prop where
  | answered (outcome : Outcome) (after : Group) :
      frame.stage = .asked →
      group.consult frame.key c.now (frame.hearsToken && task.cancelled) =
        (some outcome, after) →
      Turn c number task frame group (.step number) (.answered outcome) after
  | missed (after : Group) :
      frame.stage = .asked →
      group.consult frame.key c.now (frame.hearsToken && task.cancelled) = (none, after) →
      Turn c number task frame group (.step number) .missed after
  | joined (flight : Nat) :
      Contends frame group → (frame.key, flight) ∈ group.flights.records →
      Turn c number task frame group (.step number) (.waiting flight)
        { group with flights := { group.flights with waits := group.flights.waits + 1 } }
  | led :
      Contends frame group → (∀ flight, (frame.key, flight) ∉ group.flights.records) →
      Turn c number task frame group (.step number)
        (.leading group.flights.flights.size .recheck)
        { group with
          flights :=
            { group.flights with
              records := group.flights.records ++ [(frame.key, group.flights.flights.size)]
              flights := group.flights.flights.push .aloft
              executions := group.flights.executions + 1 } }
  | took (flight : Nat) (outcome : Outcome) :
      frame.stage = .waiting flight →
      group.flights.flights[flight]? = some (.landed outcome) →
      Turn c number task frame group (.step number) (.answered outcome) group
  | found (flight : Nat) (value : Value) (tier : Tier) :
      frame.stage = .leading flight .recheck →
      group.cache.peek frame.key c.now = some (value, tier) →
      Turn c number task frame group (.step number) (.leading flight (.done (.ok value))) group
  | loads (flight : Nat) (node : Node) :
      frame.stage = .leading flight .recheck → group.cache.peek frame.key c.now = none →
      c.nodes[frame.node]? = some node →
      (node.membership.pick frame.key = .here ∨ node.carrier = .absent) →
      Turn c number task frame group (.step number) (.leading flight .loading) group
  | fetches (flight : Nat) (node : Node) (peer : String) :
      frame.stage = .leading flight .recheck → group.cache.peek frame.key c.now = none →
      c.nodes[frame.node]? = some node → node.membership.pick frame.key = .peer peer →
      node.carrier = .external →
      Turn c number task frame group (.step number) (.leading flight (.fetching peer)) group
  | refused (flight : Nat) (node : Node) (peer : String) (sharesToken : Bool) (fault : Fault) :
      frame.stage = .leading flight .recheck → group.cache.peek frame.key c.now = none →
      c.nodes[frame.node]? = some node → node.membership.pick frame.key = .peer peer →
      node.carrier = .network sharesToken → c.route peer group.name = .error fault →
      Turn c number task frame group (.step number)
        (.leading flight (group.takeFetched frame.key c.now (.error fault)).1.errand)
        (group.takeFetched frame.key c.now (.error fault)).2
  | landed (flight : Nat) (outcome : Outcome) :
      frame.stage = .leading flight (.done outcome) →
      Turn c number task frame group (.step number) (.answered outcome)
        { group with flights := group.flights.land frame.key flight outcome }
  | loaded (flight : Nat) (answer : LoadAnswer) :
      frame.stage = .leading flight .loading →
      Turn c number task frame group (.answerLoad number answer)
        (.leading flight (.done (group.takeLoaded frame.key c.now answer).1))
        (group.takeLoaded frame.key c.now answer).2
  | fetched (flight : Nat) (peer : String) (answer : Outcome) :
      frame.stage = .leading flight (.fetching peer) →
      Turn c number task frame group (.answerFetch number answer)
        (.leading flight (group.takeFetched frame.key c.now answer).1.errand)
        (group.takeFetched frame.key c.now answer).2

/-! ## Moves -/

/-- Whether an action may change nodes. -/
def Action.rewires : Action → Bool
  | .join .. | .create .. | .removeGroup .. | .changePeers .. | .connect .. => true
  | _ => false

/-- Whether an action may do nothing, the time aside: so may a leader that looks at the tiers, where
its node or the group that it reaches is not there. -/
def Idles (c : Cluster) : Action → Prop
  | .step number => ∃ task frame outer flight, c.tasks[number]? = some task ∧
      task.frames = frame :: outer ∧ frame.stage = .leading flight .recheck
  | .create .. | .drop _ | .advance _ => True
  | _ => False

/-- Everything that an action can do to a cluster, the order of answers and the events other than
that of a key being forwarded aside. -/
inductive Move (c : Cluster) : Action → Cluster → Prop where
  | turned (number : Nat) (task : Task) (frame : Frame) (outer : List Frame) (group : Group)
      (action : Action) (stage : FrameStage) (after : Group) (following : Cluster) :
      c.tasks[number]? = some task → task.frames = frame :: outer →
      c.groups[frame.group]? = some group →
      Turn c number task frame group action stage after →
      c.Reframes number following ({ frame with stage } :: outer) →
      following.groups = c.groups.setIfInBounds frame.group after → Move c action following
  | forwarded (number : Nat) (task : Task) (frame : Frame) (outer : List Frame)
      (group served : Group) (flight : Nat) (home : Node) (peer : String) (sharesToken : Bool)
      (node target : Nat) (following : Cluster) :
      c.tasks[number]? = some task → task.frames = frame :: outer →
      c.groups[frame.group]? = some group → frame.stage = .leading flight .recheck →
      group.cache.peek frame.key c.now = none → c.nodes[frame.node]? = some home →
      home.membership.pick frame.key = .peer peer → home.carrier = .network sharesToken →
      c.route peer group.name = .ok (node, target) → c.groups[target]? = some served →
      c.Reframes number following
        ({ node, group := target, key := frame.key
           hearsToken := sharesToken && frame.hearsToken, stage := .asked } ::
          { frame with stage := .leading flight (.fetching peer) } :: outer) →
      following.groups = c.groups.setIfInBounds target served.recordServerRequest →
      following.events = c.events.push (.fetch home.id peer group.name frame.key) →
      Move c (.step number) following
  | handed (number : Nat) (task : Task) (frame parent : Frame) (outer : List Frame)
      (group : Group) (outcome : Outcome) (flight : Nat) (peer : String) (following : Cluster) :
      c.tasks[number]? = some task → task.frames = frame :: parent :: outer →
      frame.stage = .answered outcome → parent.stage = .leading flight (.fetching peer) →
      c.groups[parent.group]? = some group →
      c.Reframes number following
        ({ parent with
            stage := .leading flight (group.takeFetched parent.key c.now outcome).1.errand } ::
          outer) →
      following.groups =
        c.groups.setIfInBounds parent.group (group.takeFetched parent.key c.now outcome).2 →
      Move c (.step number) following
  | popped (number : Nat) (task : Task) (frame : Frame) (outer : List Frame) (outcome : Outcome)
      (following : Cluster) :
      c.tasks[number]? = some task → task.frames = frame :: outer →
      frame.stage = .answered outcome → c.Reframes number following outer →
      following.groups = c.groups → outer ≠ [] →
      (∀ (parent : Frame) (rest : List Frame) (flight : Nat) (peer : String),
        outer = parent :: rest → parent.stage = .leading flight (.fetching peer) →
        c.groups[parent.group]? = none) →
      Move c (.step number) following
  | finished (number : Nat) (task : Task) (frame : Frame) (outcome : Outcome)
      (following : Cluster) :
      c.tasks[number]? = some task → task.frames = [frame] → frame.stage = .answered outcome →
      (c.Retasks number following fun t ↦
        { t with answer := some (task.purpose.answer c.now outcome), frames := [] }) →
      following.groups = c.groups → Move c (.step number) following
  | heeded (number depth : Nat) (task : Task) (frame : Frame) (following : Cluster) :
      c.tasks[number]? = some task → task.frames[depth]? = some frame →
      task.cancelled = true → frame.hearsToken = true → frame.stage.awaits = true →
      c.Reframes number following
        ({ frame with stage := .answered (.error .cancelled) } :: task.frames.drop (depth + 1)) →
      following.groups = (c.abandon (task.frames.take (depth + 1))).groups →
      Move c (.heed number depth) following
  | brokeOff (number depth : Nat) (reason : String) (task : Task) (frame : Frame) (flight : Nat)
      (peer : String) (group : Group) (following : Cluster) :
      c.tasks[number]? = some task → task.frames[depth + 1]? = some frame →
      frame.stage = .leading flight (.fetching peer) →
      (c.abandon (task.frames.take (depth + 1))).groups[frame.group]? = some group →
      c.Reframes number following
        ({ frame with
            stage :=
              .leading flight
                (group.takeFetched frame.key c.now
                  (.error (.transportFailure peer reason))).1.errand } ::
          task.frames.drop (depth + 2)) →
      following.groups =
        (c.abandon (task.frames.take (depth + 1))).groups.setIfInBounds frame.group
          (group.takeFetched frame.key c.now (.error (.transportFailure peer reason))).2 →
      Move c (.breakOff number depth reason) following
  | expired (number : Nat) (task : Task) (deadline : Millis) (following : Cluster) :
      c.tasks[number]? = some task → task.pending = true → task.deadline = some deadline →
      deadline ≤ c.now →
      (c.Retasks number following fun t ↦
        { t with answer := some (task.purpose.answer c.now (.error .cancelled)), frames := [] }) →
      following.groups = (c.abandon task.frames).groups → Move c (.expire number) following
  | dropped (number : Nat) (task : Task) (following : Cluster) :
      c.tasks[number]? = some task → task.pending = true →
      (c.Retasks number following fun t ↦ { t with dropped := true, frames := [] }) →
      following.groups = (c.abandon task.frames).groups → Move c (.drop number) following
  | fired (number : Nat) : Move c (.cancel number) (c.cancel number)
  | asked (node index : Nat) (key : String) (hearsToken cancelled : Bool)
      (timeout : Option Millis) (group : Group) :
      c.groups[index]? = some group →
      Move c (.get node index key hearsToken cancelled timeout)
        (c.get node index key hearsToken cancelled timeout).2
  | requested (node : Nat) (method path name key : String) (index : Nat) (group : Group)
      (deadline : Option Millis) :
      c.groups[index]? = some group → c.group? node name = some index →
      Move c (.serve node method path)
        ((c.setGroup index group.recordServerRequest).begin node index key (.serve name key) false
          false deadline).2
  | responded (node : Nat) (method path : String) (response : Http.Response) :
      Move c (.serve node method path) (c.respond response).2
  | removed (index : Nat) (key : String) (group : Group) :
      c.groups[index]? = some group →
      Move c (.remove index key) (c.setGroup index (group.remove key).2)
  | cleared (index : Nat) (group : Group) :
      c.groups[index]? = some group → Move c (.clear index) (c.setGroup index group.clear)
  | added (membership : Membership) (carrier : Carrier) (basePath : String)
      (requestTimeout : Millis) :
      Move c (.join membership carrier basePath requestTimeout)
        (c.addNode
          { membership, carrier, online := true, basePath, requestTimeout, registry := [] })
  | created (node : Nat) (name : String) (settings : GroupSettings) :
      c.group? node name = none →
      Move c (.create node name settings)
        ({ c with groups := c.groups.push (.create name settings) }.modifyNode node fun n ↦
          { n with registry := register name c.groups.size n.registry })
  | rewired (action : Action) (node : Nat) (change : Node → Node) :
      (∀ n, (change n).carrier = n.carrier ∧ (change n).id = n.id ∧
        ∀ entry ∈ (change n).registry, entry ∈ n.registry) →
      action.rewires = true → Move c action (c.modifyNode node change)
  | stayed (action : Action) (following : Cluster) :
      following.groups = c.groups → following.tasks = c.tasks → following.nodes = c.nodes →
      c.Idles action → Move c action following

/-! ## What a change of one task does to the others -/

section

variable {c following : Cluster} {number other : Nat} {change : Task → Task} {task : Task}

theorem Retasks.size_eq (h : c.Retasks number following change) :
    following.tasks.size = c.tasks.size := by
  rw [h.tasks, Array.size_modify]

/-- The task that was changed reads so. -/
theorem Retasks.getElem? (h : c.Retasks number following change)
    (htask : c.tasks[number]? = some task) : following.tasks[number]? = some (change task) := by
  rw [h.tasks, Array.getElem?_modify, if_pos rfl, htask]
  rfl

/-- Another task reads as before. -/
theorem Retasks.getElem?_ne (h : c.Retasks number following change) (hne : number ≠ other) :
    following.tasks[other]? = c.tasks[other]? := by
  rw [h.tasks, Array.getElem?_modify, if_neg hne]

/-- A task that is found was there before, or it is the one that was changed. -/
theorem Retasks.cases (h : c.Retasks number following change)
    (htask : following.tasks[other]? = some task) :
    c.tasks[other]? = some task ∨
      other = number ∧ ∃ before, c.tasks[number]? = some before ∧ task = change before := by
  rw [h.tasks, Array.getElem?_modify] at htask
  split at htask
  · next heq =>
    subst heq
    obtain ⟨before, hbefore, rfl⟩ := Option.map_eq_some_iff.1 htask
    exact .inr ⟨rfl, before, hbefore, rfl⟩
  · exact .inl htask

end

/-- No task disappears. -/
theorem Move.size_le {c following : Cluster} {action : Action} (move : Move c action following) :
    c.tasks.size ≤ following.tasks.size := by
  cases move
  case fired => simp [cancel, modifyTask]
  case asked | requested | responded => simp [Cluster.get, Cluster.begin, respond]
  case removed | cleared | added | created | rewired => exact Nat.le_refl _
  case stayed hgroups htasks hnodes => exact Nat.le_of_eq (congrArg Array.size htasks).symm
  all_goals
    have hsize := Retasks.size_eq (by assumption)
    exact Nat.le_of_eq hsize.symm

/-- An action that may not change nodes does not. -/
theorem Move.nodes_eq {c following : Cluster} {action : Action} (move : Move c action following)
    (hkeeps : action.rewires = false) : following.nodes = c.nodes := by
  cases move
  case added | created => cases hkeeps
  case rewired node change hchange hrewires => cases hkeeps.symm.trans hrewires
  case stayed hgroups htasks hnodes => exact hnodes
  case fired | asked | requested | responded | removed | cleared => rfl
  all_goals exact Retasks.nodes (by assumption)

/-- What a move keeps of a task: what it was begun for, its deadline and that its token fired. The
answer that it gets is one for what it was begun for. -/
structure Continues (now : Millis) (task after : Task) : Prop where
  purpose : after.purpose = task.purpose
  deadline : after.deadline = task.deadline
  cancelled : task.cancelled = true → after.cancelled = true
  answer : after.answer = task.answer ∨
    ∃ outcome, after.answer = some (task.purpose.answer now outcome)

/-- A task that changes goes on if the change lets it. -/
theorem Retasks.continues {c following : Cluster} {number other : Nat} {change : Task → Task}
    {task : Task} (h : c.Retasks number following change)
    (htask : c.tasks[other]? = some task)
    (hchange : ∀ t, c.tasks[number]? = some t → Continues c.now t (change t)) :
    ∃ after, following.tasks[other]? = some after ∧ Continues c.now task after := by
  by_cases heq : number = other
  · subst heq
    exact ⟨change task, h.getElem? htask, hchange task htask⟩
  · exact ⟨task, (h.getElem?_ne heq).trans htask, rfl, rfl, id, .inl rfl⟩

/-- Every move lets every task go on. -/
theorem Move.continues {c following : Cluster} {action : Action} (move : Move c action following)
    {number : Nat} {task : Task} (htask : c.tasks[number]? = some task) :
    ∃ after, following.tasks[number]? = some after ∧ Continues c.now task after := by
  have hsame : following.tasks[number]? = some task →
      ∃ after, following.tasks[number]? = some after ∧ Continues c.now task after :=
    fun hsame ↦ ⟨task, hsame, rfl, rfl, id, .inl rfl⟩
  have hpush : ∀ {other : Task}, (c.tasks.push other)[number]? = some task := by
    intro other
    rw [Array.getElem?_push, if_neg (Nat.ne_of_lt (Array.getElem?_eq_some_iff.1 htask).1), htask]
  cases move
  case finished other found frame outcome hfound hframes hstage hretasks hgroups =>
    refine hretasks.continues htask fun t ht ↦ ⟨rfl, rfl, id, .inr ⟨outcome, ?_⟩⟩
    rw [hfound] at ht
    cases ht
    rfl
  case expired other found deadline hfound hpending hdeadline hdue hretasks hgroups =>
    refine hretasks.continues htask fun t ht ↦ ⟨rfl, rfl, id, .inr ⟨.error .cancelled, ?_⟩⟩
    rw [hfound] at ht
    cases ht
    rfl
  case fired other =>
    have hretasks : c.Retasks other (c.cancel other) fun t ↦ { t with cancelled := true } :=
      ⟨rfl, rfl, rfl⟩
    exact hretasks.continues htask fun t _ ↦ ⟨rfl, rfl, fun _ ↦ rfl, .inl rfl⟩
  case asked | requested | responded => exact hsame hpush
  case removed | cleared | added | created | rewired => exact hsame htask
  case stayed hgroups htasks hnodes => exact hsame (htasks ▸ htask)
  all_goals
    refine Retasks.continues (by assumption) htask fun t _ ↦ ?_
    exact ⟨rfl, rfl, id, .inl rfl⟩

/-! ## Every action is a move -/

/-- Forwarding a key over the network is one of the moves. -/
theorem forward_move {c : Cluster} {number : Nat} {task : Task} {frame : Frame}
    {outer : List Frame} {group : Group} {flight : Nat} {home : Node} {peer : String}
    {sharesToken : Bool} (htask : c.tasks[number]? = some task)
    (hframes : task.frames = frame :: outer) (hgroup : c.groups[frame.group]? = some group)
    (hstage : frame.stage = .leading flight .recheck)
    (hpeek : group.cache.peek frame.key c.now = none) (hhome : c.nodes[frame.node]? = some home)
    (hpick : home.membership.pick frame.key = .peer peer)
    (hcarrier : home.carrier = .network sharesToken) :
    Move c (.step number)
      ((c.record (.fetch home.id peer group.name frame.key)).forward number frame outer group flight
        peer sharesToken) := by
  unfold forward
  split
  · next fault hroute =>
    obtain ⟨⟨htasks, hnodes, hnow⟩, hgroups⟩ :=
      takeFetched_spec (c.record (.fetch home.id peer group.name frame.key)) number frame outer
        group flight peer (.error fault)
    exact .turned number task frame outer group _ _ _ _ htask hframes hgroup
      (.refused flight home peer sharesToken fault hstage hpeek hhome hpick hcarrier hroute)
      ⟨htasks, hnodes, hnow⟩ hgroups
  · next node target hroute =>
    dsimp only
    split
    · exact .stayed _ _ rfl rfl rfl
        ⟨task, frame, outer, flight, htask, hframes, hstage⟩
    · next served hserved =>
      exact .forwarded number task frame outer group served flight home peer sharesToken node
        target _ htask hframes hgroup hstage hpeek hhome hpick hcarrier hroute hserved
        ⟨rfl, rfl, rfl⟩ rfl rfl

/-- The work of a leader, looking at the tiers once more, is one of the moves. -/
theorem dispatch_move {c : Cluster} {number : Nat} {task : Task} {frame : Frame}
    {outer : List Frame} {group : Group} {flight : Nat} (htask : c.tasks[number]? = some task)
    (hframes : task.frames = frame :: outer) (hgroup : c.groups[frame.group]? = some group)
    (hstage : frame.stage = .leading flight .recheck) :
    Move c (.step number) (c.dispatch number frame outer group flight) := by
  unfold dispatch
  split
  · next value tier hpeek =>
    exact .turned number task frame outer group _ _ _ _ htask hframes hgroup
      (.found flight value tier hstage hpeek) ⟨rfl, rfl, rfl⟩ rfl
  · next hpeek =>
    split
    · exact .stayed _ _ rfl rfl rfl
        ⟨task, frame, outer, flight, htask, hframes, hstage⟩
    · next node hnode =>
      have hload : node.membership.pick frame.key = .here ∨ node.carrier = .absent →
          Move c (.step number) (c.startLoad number frame outer group flight) := fun hhere ↦
        .turned number task frame outer group _ _ _ _ htask hframes hgroup
          (.loads flight node hstage hpeek hnode hhere) ⟨rfl, rfl, rfl⟩ rfl
      cases hpick : node.membership.pick frame.key with
      | here => exact hload (.inl hpick)
      | peer peer =>
          cases hcarrier : node.carrier with
          | absent => exact hload (.inr hcarrier)
          | external =>
              exact .turned number task frame outer group _ _ _ _ htask hframes hgroup
                (.fetches flight node peer hstage hpeek hnode hpick hcarrier) ⟨rfl, rfl, rfl⟩
                (setIfInBounds_same hgroup).symm
          | network sharesToken =>
              exact forward_move htask hframes hgroup hstage hpeek hnode hpick hcarrier

/-- Handing an outcome on is one of the moves. -/
theorem handOn_move {c : Cluster} {number : Nat} {task : Task} {frame : Frame}
    {outer : List Frame} {outcome : Outcome} (htask : c.tasks[number]? = some task)
    (hframes : task.frames = frame :: outer) (hstage : frame.stage = .answered outcome) :
    Move c (.step number) (c.handOn number outer outcome) := by
  unfold handOn
  split
  · obtain ⟨hretasks, hgroups⟩ := finish_spec outcome htask
    exact .finished number task frame outcome _ htask hframes hstage hretasks hgroups
  · next parent rest =>
    split
    · next flight peer group hparent hgroup =>
      obtain ⟨hreframes, hgroups⟩ :=
        takeFetched_spec c number parent rest group flight peer outcome
      exact .handed number task frame parent rest group outcome flight peer _ htask hframes
        hstage hparent hgroup hreframes hgroups
    · next hidle =>
      refine .popped number task frame (parent :: rest) outcome _ htask hframes hstage
        ⟨rfl, rfl, rfl⟩ rfl (List.cons_ne_nil _ _) ?_
      rintro _ _ flight peer ⟨⟩ hfetching
      exact Option.eq_none_iff_forall_ne_some.2 fun group ↦ hidle flight peer group hfetching

/-- Whatever a task does by itself is one of the moves. -/
theorem step?_move {c following : Cluster} {number : Nat} (h : c.step? number = some following) :
    Move c (.step number) following := by
  simp only [step?, bind, Option.bind_eq_some_iff] at h
  obtain ⟨task, htask, h⟩ := h
  split at h
  · cases h
  · next frame outer hframes =>
    simp only [Option.bind_eq_some_iff] at h
    obtain ⟨group, hgroup, h⟩ := h
    have hturned : ∀ {stage : FrameStage} {after : Group} {following : Cluster},
        Turn c number task frame group (.step number) stage after →
        c.Reframes number following ({ frame with stage } :: outer) →
        following.groups = c.groups.setIfInBounds frame.group after →
        Move c (.step number) following :=
      .turned number task frame outer group _ _ _ _ htask hframes hgroup
    have henter : Contends frame group → Move c (.step number)
        (c.enter number frame outer group) := by
      intro hcontends
      unfold enter
      rcases group.flights.enter_cases frame.key with ⟨flight, hmem, henter⟩ | ⟨hfree, henter⟩
      · rw [henter]
        exact hturned (.joined flight hcontends hmem) ⟨rfl, rfl, rfl⟩ rfl
      · rw [henter]
        exact hturned (.led hcontends hfree) ⟨rfl, rfl, rfl⟩ rfl
    split at h
    · next hstage =>
      split at h
      · next outcome after hconsult =>
        cases h
        refine hturned (.answered outcome after hstage hconsult) ?_ ?_
        · split <;> exact ⟨rfl, rfl, rfl⟩
        · split <;> rfl
      · next after hconsult =>
        cases h
        exact hturned (.missed after hstage hconsult) ⟨rfl, rfl, rfl⟩ rfl
    · next hstage =>
      cases h
      exact henter (.inl hstage)
    · next flight hstage =>
      split at h
      · next outcome hstatus =>
        cases h
        exact hturned (.took flight outcome hstage (FlightTable.status_eq_landed.1 hstatus))
          ⟨rfl, rfl, rfl⟩ (setIfInBounds_same hgroup).symm
      · next hstatus =>
        cases h
        exact henter (.inr ⟨flight, hstage, hstatus⟩)
      · cases h
    · next flight hstage =>
      cases h
      exact dispatch_move htask hframes hgroup hstage
    · cases h
    · cases h
    · next flight outcome hstage =>
      cases h
      exact hturned (.landed flight outcome hstage) ⟨rfl, rfl, rfl⟩ rfl
    · next outcome hstage =>
      cases h
      exact handOn_move htask hframes hstage

/-- What a loader answers makes one of the moves. -/
theorem answerLoad?_move {c following : Cluster} {number : Nat} {answer : LoadAnswer}
    (h : c.answerLoad? number answer = some following) :
    Move c (.answerLoad number answer) following := by
  simp only [answerLoad?, bind, Option.bind_eq_some_iff] at h
  obtain ⟨task, htask, h⟩ := h
  split at h
  · next frame outer hframes =>
    split at h
    · next flight group hstage hgroup =>
      cases h
      refine .turned number task frame outer group _ _ _ _ htask hframes hgroup
        (.loaded flight answer hstage) ?_ ?_
      · split <;> exact ⟨rfl, rfl, rfl⟩
      · split <;> rfl
    · cases h
  · cases h

/-- What an external peer answers makes one of the moves. -/
theorem answerFetch?_move {c following : Cluster} {number : Nat} {answer : Outcome}
    (h : c.answerFetch? number answer = some following) :
    Move c (.answerFetch number answer) following := by
  simp only [answerFetch?, bind, Option.bind_eq_some_iff] at h
  obtain ⟨task, htask, h⟩ := h
  split at h
  · next frame outer hframes =>
    split at h
    · next flight peer group hstage hgroup =>
      cases h
      obtain ⟨hreframes, hgroups⟩ :=
        takeFetched_spec c number frame outer group flight peer answer
      exact .turned number task frame outer group _ _ _ _ htask hframes hgroup
        (.fetched flight peer answer hstage) hreframes hgroups
    · cases h
  · cases h

/-- Serving a request is one of the moves. -/
theorem serve_move (c : Cluster) (node : Nat) (method path : String) :
    Move c (.serve node method path) (c.serve node method path).2 := by
  unfold serve
  split
  · exact .responded node method path _
  · next n hnode =>
    split
    · exact .responded node method path _
    · exact .responded node method path _
    · exact .responded node method path _
    · exact .responded node method path _
    · next name key hroute =>
      split
      · exact .responded node method path _
      · next index hindex =>
        split
        · exact .responded node method path _
        · next group hgroup =>
          refine .requested node method path name key index group _ hgroup ?_
          rw [group?, hnode]
          exact hindex

/-- A token that is noticed makes one of the moves. -/
theorem heed?_move {c following : Cluster} {number depth : Nat}
    (h : c.heed? number depth = some following) : Move c (.heed number depth) following := by
  simp only [heed?, bind, Option.bind_eq_some_iff] at h
  obtain ⟨task, htask, frame, hframe, h⟩ := h
  split at h
  · next hheeds =>
    cases h
    simp only [Bool.and_eq_true] at hheeds
    obtain ⟨⟨hcancelled, hhears⟩, hawaits⟩ := hheeds
    refine .heeded number depth task frame _ htask hframe hcancelled hhears hawaits
      ⟨?_, ?_, ?_⟩ rfl
    · simp [setFrames, modifyTask]
    · simp [setFrames, modifyTask]
    · simp [setFrames, modifyTask]
  · cases h

/-- A connection that breaks makes one of the moves. -/
theorem breakOff?_move {c following : Cluster} {number depth : Nat} {reason : String}
    (h : c.breakOff? number depth reason = some following) :
    Move c (.breakOff number depth reason) following := by
  simp only [breakOff?, bind, Option.bind_eq_some_iff] at h
  obtain ⟨task, htask, frame, hframe, h⟩ := h
  split at h
  · next flight peer group hstage hgroup =>
    cases h
    obtain ⟨⟨htasks, hnodes, hnow⟩, hgroups⟩ :=
      takeFetched_spec (c.abandon (task.frames.take (depth + 1))) number frame
        (task.frames.drop (depth + 2)) group flight peer (.error (.transportFailure peer reason))
    simp only [tasks_abandon, nodes_abandon, now_abandon] at htasks hnodes hnow hgroups
    exact .brokeOff number depth reason task frame flight peer group _ htask hframe hstage hgroup
      ⟨htasks, hnodes, hnow⟩ hgroups
  · cases h

/-- A task whose time is up makes one of the moves. -/
theorem expire?_move {c following : Cluster} {number : Nat}
    (h : c.expire? number = some following) : Move c (.expire number) following := by
  simp only [expire?, bind, Option.bind_eq_some_iff] at h
  obtain ⟨task, htask, deadline, hdeadline, h⟩ := h
  split at h
  · next hdue =>
    cases h
    simp only [Bool.and_eq_true, decide_eq_true_eq] at hdue
    have htask' : (c.abandon task.frames).tasks[number]? = some task := by
      rw [tasks_abandon, htask]
    obtain ⟨⟨htasks, hnodes, hnow⟩, hgroups⟩ := finish_spec (.error .cancelled) htask'
    simp only [tasks_abandon, nodes_abandon, now_abandon] at htasks hnodes hnow
    exact .expired number task deadline _ htask hdue.1 hdeadline hdue.2 ⟨htasks, hnodes, hnow⟩
      hgroups
  · cases h

/-- A task that is given up makes one of the moves. -/
theorem drop_move (c : Cluster) (number : Nat) : Move c (.drop number) (c.drop number) := by
  unfold drop
  split
  · exact .stayed _ _ rfl rfl rfl trivial
  · next task htask =>
    split
    · next hpending =>
      refine .dropped number task _ htask hpending ⟨?_, ?_, ?_⟩ rfl
      · simp [modifyTask]
      · simp [modifyTask]
      · simp [modifyTask]
    · exact .stayed _ _ rfl rfl rfl trivial

/-- Whatever an action does is one of the moves. -/
theorem act?_move {c following : Cluster} {action : Action}
    (h : c.act? action = some following) : Move c action following := by
  cases action with
  | join membership carrier basePath requestTimeout =>
      cases h
      exact .added membership carrier basePath requestTimeout
  | create node name settings =>
      simp only [act?, Option.some.injEq, getOrCreate] at h
      subst h
      split
      · exact .stayed _ _ rfl rfl rfl trivial
      · next hnone => exact .created node name settings hnone
  | removeGroup node name =>
      cases h
      refine .rewired _ node _ (fun n ↦ ⟨rfl, rfl, ?_⟩) rfl
      intro entry hentry
      exact (List.mem_filter.1 hentry).1
  | changePeers node change =>
      cases h
      refine .rewired _ node _ (fun n ↦ ⟨rfl, ?_, fun _ hentry ↦ hentry⟩) rfl
      cases change <;> rfl
  | connect node online =>
      cases h
      exact .rewired _ node _ (fun n ↦ ⟨rfl, rfl, fun _ hentry ↦ hentry⟩) rfl
  | get node index key hearsToken cancelled timeout =>
      simp only [act?, bind, Option.bind_eq_some_iff] at h
      obtain ⟨group, hgroup, h⟩ := h
      cases h
      exact .asked node index key hearsToken cancelled timeout group hgroup
  | serve node method path =>
      cases h
      exact serve_move c node method path
  | step number => exact step?_move h
  | heed number depth => exact heed?_move h
  | answerLoad number answer => exact answerLoad?_move h
  | answerFetch number answer => exact answerFetch?_move h
  | breakOff number depth reason => exact breakOff?_move h
  | expire number => exact expire?_move h
  | drop number =>
      cases h
      exact drop_move c number
  | cancel number =>
      cases h
      exact .fired number
  | remove index key =>
      simp only [act?, bind, Option.bind_eq_some_iff] at h
      obtain ⟨group, hgroup, h⟩ := h
      cases h
      exact .removed index key group hgroup
  | clear index =>
      simp only [act?, bind, Option.bind_eq_some_iff] at h
      obtain ⟨group, hgroup, h⟩ := h
      cases h
      exact .cleared index group hgroup
  | advance span =>
      cases h
      exact .stayed _ _ rfl rfl rfl trivial

end Cluster

end ReadThrough
