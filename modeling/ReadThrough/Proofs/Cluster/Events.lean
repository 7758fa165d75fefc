import ReadThrough.Proofs.Cluster.Transitions
import ReadThrough.Proofs.Group.Agreement

/-!
# The clock and the events of a cluster

An action lets time pass or stand still, and adds events to those recorded so far. The calls of
loaders and peers among the new events are made by frames that lead a flight: one whose fetch has
failed just now, so that the loader is called instead, or one that looked at the tiers just now and
found nothing (`act?_accounts`).
-/

namespace ReadThrough

/-- A call that a frame made, of its loader or of a peer, has no answer yet. -/
def Frame.Calls (frame : Frame) : Prop :=
  ∃ flight, frame.stage = .leading flight .loading ∨
    ∃ peer, frame.stage = .leading flight (.fetching peer)

/-- The node, the group and the key of a call. -/
def Event.call? : Event → Option (String × String × String)
  | .load node group key => some (node, group, key)
  | .fetch node _ group key => some (node, group, key)
  | _ => none

namespace Cluster

/-- The name of a node, empty if there is none. -/
def idOf (c : Cluster) (node : Nat) : String :=
  (c.nodes[node]?.map Node.id).getD ""

/-- A frame belongs to a task. -/
def HasFrame (c : Cluster) (number : Nat) (frame : Frame) : Prop :=
  ∃ task, c.tasks[number]? = some task ∧ frame ∈ task.frames

/-- A frame of a task may make a call: it has made one before, or it finds nothing in the tiers. -/
structure MayCall (c : Cluster) (number : Nat) (frame : Frame) (group : Group) : Prop where
  mem : c.HasFrame number frame
  served : c.groups[frame.group]? = some group
  stage : frame.Calls ∨ (∃ flight, frame.stage = .leading flight .recheck) ∧
    group.cache.peek frame.key c.now = none

/-- The innermost frame of a task leads a flight, and finds nothing in the tiers as it looks at them
once more. -/
structure Misses (c : Cluster) (number : Nat) (frame : Frame) (outer : List Frame) (group : Group)
    (node : Node) : Prop where
  task : ∃ task, c.tasks[number]? = some task ∧ task.frames = frame :: outer
  served : c.groups[frame.group]? = some group
  stage : ∃ flight, frame.stage = .leading flight .recheck
  peek : group.cache.peek frame.key c.now = none
  home : c.nodes[frame.node]? = some node

/-- The fetch of a frame of a task comes to a fault: the peer cannot be reached or has no such
group, the get on the peer hands the fault on, a peer outside of the cluster answers so, or the
connection breaks. -/
inductive FetchFails (c : Cluster) : Action → Nat → Frame → String → Fault → Prop where
  | refused (number : Nat) (frame : Frame) (outer : List Frame) (group : Group) (node : Node)
      (peer : String) (fault : Fault) :
      c.Misses number frame outer group node → node.membership.pick frame.key = .peer peer →
      c.route peer group.name = .error fault → FetchFails c (.step number) number frame peer fault
  | handed (number : Nat) (task : Task) (inner frame : Frame) (outer : List Frame) (flight : Nat)
      (peer : String) (fault : Fault) :
      c.tasks[number]? = some task → task.frames = inner :: frame :: outer →
      inner.stage = .answered (.error fault) → frame.stage = .leading flight (.fetching peer) →
      FetchFails c (.step number) number frame peer fault
  | answered (number : Nat) (task : Task) (frame : Frame) (outer : List Frame) (flight : Nat)
      (peer : String) (fault : Fault) :
      c.tasks[number]? = some task → task.frames = frame :: outer →
      frame.stage = .leading flight (.fetching peer) →
      FetchFails c (.answerFetch number (.error fault)) number frame peer fault
  | brokeOff (number depth : Nat) (reason : String) (task : Task) (frame : Frame) (flight : Nat)
      (peer : String) :
      c.tasks[number]? = some task → task.frames[depth + 1]? = some frame →
      frame.stage = .leading flight (.fetching peer) →
      FetchFails c (.breakOff number depth reason) number frame peer
        (.transportFailure peer reason)

/-- How a call comes to be recorded: a leader that finds nothing in the tiers fetches from the peer
that it picks, or calls its loader if it picks no other node or reaches none; or its fetch came to a
fault of the peer's own, and its group falls back to the loader. -/
inductive Accounts (c : Cluster) : Action → Event → Prop where
  | fetches (number : Nat) (frame : Frame) (outer : List Frame) (group : Group) (node : Node)
      (peer : String) :
      c.Misses number frame outer group node → node.membership.pick frame.key = .peer peer →
      Accounts c (.step number) (.fetch node.id peer group.name frame.key)
  | loads (number : Nat) (frame : Frame) (outer : List Frame) (group : Group) (node : Node) :
      c.Misses number frame outer group node →
      node.membership.pick frame.key = .here ∨ node.carrier = .absent →
      Accounts c (.step number) (.load node.id group.name frame.key)
  | fallsBack (action : Action) (number : Nat) (frame : Frame) (group : Group) (peer : String)
      (fault : Fault) :
      c.FetchFails action number frame peer fault → c.groups[frame.group]? = some group →
      group.settings.fallbackToLocal = true → fault.isNotFound = false → fault ≠ .cancelled →
      Accounts c action (.load (c.idOf frame.node) group.name frame.key)

/-- A cluster in which time stood still since another one, and every call that was recorded in
between is accounted for. -/
structure Notes (c : Cluster) (accounted : Event → Prop) (following : Cluster) : Prop where
  now : following.now = c.now
  events : ∃ fresh, following.events.toList = c.events.toList ++ fresh ∧
    ∀ event ∈ fresh, event.call?.isSome → accounted event

variable {c middle following : Cluster} {accounted : Event → Prop} {action : Action}

/-- Nothing was recorded. -/
theorem Notes.silent (hnow : following.now = c.now) (hevents : following.events = c.events) :
    Notes c accounted following :=
  ⟨hnow, [], by rw [hevents, List.append_nil], fun _ hmem ↦ nomatch hmem⟩

/-- Nothing more was recorded. -/
theorem Notes.congr (h : Notes c accounted middle) (hnow : following.now = middle.now)
    (hevents : following.events = middle.events) : Notes c accounted following := by
  obtain ⟨fresh, hfresh, hcalls⟩ := h.events
  exact ⟨hnow.trans h.now, fresh, hevents ▸ hfresh, hcalls⟩

/-- One more event was recorded. -/
theorem Notes.record (h : Notes c accounted middle) {event : Event}
    (hevent : event.call?.isSome → accounted event) :
    Notes c accounted (middle.record event) := by
  obtain ⟨fresh, hfresh, hcalls⟩ := h.events
  refine ⟨h.now, fresh ++ [event], ?_, ?_⟩
  · rw [Cluster.record, Array.toList_push, hfresh, List.append_assoc]
  · intro other hmem
    rcases List.mem_append.1 hmem with hold | hnew
    · exact hcalls other hold
    · rw [List.mem_singleton.1 hnew]
      exact hevent

/-- An event that is no call was recorded. -/
theorem Notes.remark (h : Notes c accounted middle) {event : Event} (hevent : event.call? = none) :
    Notes c accounted (middle.record event) :=
  h.record fun hcall ↦ by simp [hevent] at hcall

/-! ## Parts of a transition -/

section

variable {number : Nat} {frame : Frame} {outer : List Frame} {group : Group} {flight : Nat}

@[simp] theorem events_abandon (c : Cluster) (frames : List Frame) :
    (c.abandon frames).events = c.events :=
  abandon_induction (P := fun left ↦ left.events = c.events) rfl fun _ _ _ _ _ h _ _ _ ↦ h

theorem finish_notes (h : Notes c accounted middle) (outcome : Outcome) :
    Notes c accounted (middle.finish number outcome) := by
  unfold finish
  split
  · exact h
  · dsimp only
    split
    · exact h.congr rfl rfl
    · split
      · split
        · exact h.congr rfl rfl
        · exact (h.remark rfl).congr rfl rfl
      · exact h.congr rfl rfl

theorem startLoad_notes (h : Notes c accounted middle)
    (hload : accounted (.load (middle.idOf frame.node) group.name frame.key)) :
    Notes c accounted (middle.startLoad number frame outer group flight) := by
  have hrecorded : Notes c accounted
      (middle.record (.load (middle.idOf frame.node) group.name frame.key)) :=
    h.record fun _ ↦ hload
  exact hrecorded.congr rfl rfl

theorem takeFetched_notes (h : Notes c accounted middle) (peer : String) (answer : Outcome)
    (hload : ∀ fault, answer = .error fault → group.settings.fallbackToLocal = true →
      fault.isNotFound = false → fault ≠ .cancelled →
      accounted (.load (middle.idOf frame.node) group.name frame.key)) :
    Notes c accounted (middle.takeFetched number frame outer group flight peer answer) := by
  have hname := (group.takeFetched_kept frame.key middle.now answer).name
  unfold takeFetched
  split
  · exact h.congr rfl rfl
  · next fault after htaken =>
    obtain ⟨hanswer, hfallback, hfound, hcancelled⟩ :=
      Group.fallBack_of_takeFetched (congrArg Prod.fst htaken)
    rw [htaken] at hname
    refine startLoad_notes (h.remark rfl) ?_
    rw [hname]
    exact hload fault hanswer hfallback hfound hcancelled

theorem forward_notes (h : Notes c accounted middle) (peer : String) (sharesToken : Bool)
    (hload : ∀ fault, middle.route peer group.name = .error fault →
      group.settings.fallbackToLocal = true → fault.isNotFound = false → fault ≠ .cancelled →
      accounted (.load (middle.idOf frame.node) group.name frame.key)) :
    Notes c accounted (middle.forward number frame outer group flight peer sharesToken) := by
  unfold forward
  split
  · next fault hroute =>
    refine takeFetched_notes h peer _ ?_
    rintro _ ⟨⟩
    exact hload fault hroute
  · dsimp only
    split
    · exact h
    · exact h.congr rfl rfl

theorem dispatch_notes {task : Task} (htask : c.tasks[number]? = some task)
    (hframes : task.frames = frame :: outer) (hgroup : c.groups[frame.group]? = some group)
    (hstage : frame.stage = .leading flight .recheck) :
    Notes c (c.Accounts (.step number)) (c.dispatch number frame outer group flight) := by
  unfold dispatch
  split
  · exact .silent rfl rfl
  · next hpeek =>
    split
    · exact .silent rfl rfl
    · next node hnode =>
      have hmisses : c.Misses number frame outer group node :=
        ⟨⟨task, htask, hframes⟩, hgroup, ⟨flight, hstage⟩, hpeek, hnode⟩
      have hid : c.idOf frame.node = node.id := by rw [idOf, hnode]; rfl
      have hfetch : ∀ {peer}, node.membership.pick frame.key = .peer peer →
          Notes c (c.Accounts (.step number))
            (c.record (.fetch node.id peer group.name frame.key)) :=
        fun hpick ↦ (Notes.silent rfl rfl).record fun _ ↦
          .fetches number frame outer group node _ hmisses hpick
      have hload : node.membership.pick frame.key = .here ∨ node.carrier = .absent →
          Notes c (c.Accounts (.step number)) (c.startLoad number frame outer group flight) := by
        intro hhere
        refine startLoad_notes (.silent rfl rfl) ?_
        rw [hid]
        exact .loads number frame outer group node hmisses hhere
      cases hpick : node.membership.pick frame.key with
      | here => exact hload (.inl hpick)
      | peer peer =>
          cases hcarrier : node.carrier with
          | absent => exact hload (.inr hcarrier)
          | external => exact (hfetch hpick).congr rfl rfl
          | network sharesToken =>
              exact forward_notes (hfetch hpick) peer sharesToken fun fault hroute hfallback hfound
                hcancelled ↦ .fallsBack _ number frame group peer fault
                  (.refused number frame outer group node peer fault hmisses hpick hroute) hgroup
                  hfallback hfound hcancelled

theorem handOn_notes {outcome : Outcome}
    (hload : ∀ parent rest flight peer group fault, outer = parent :: rest →
      parent.stage = .leading flight (.fetching peer) → c.groups[parent.group]? = some group →
      outcome = .error fault → group.settings.fallbackToLocal = true →
      fault.isNotFound = false → fault ≠ .cancelled →
      accounted (.load (c.idOf parent.node) group.name parent.key)) :
    Notes c accounted (c.handOn number outer outcome) := by
  unfold handOn
  split
  · exact finish_notes (.silent rfl rfl) outcome
  · next parent rest =>
    split
    · next flight peer group hparent hgroup =>
      exact takeFetched_notes (.silent rfl rfl) peer outcome fun fault ↦
        hload parent rest flight peer group fault rfl hparent hgroup
    · exact .silent rfl rfl

end

/-! ## Actions -/

/-- A call that a frame of a task may make. -/
def Due (c : Cluster) (number : Nat) (call : String × String × String) : Prop :=
  ∃ frame group, c.MayCall number frame group ∧
    call = (c.idOf frame.node, group.name, frame.key)

/-- The task that an action moves. -/
def Action.mover? : Action → Option Nat
  | .step number | .heed number _ | .answerLoad number _ | .answerFetch number _
  | .breakOff number _ _ | .expire number | .drop number | .cancel number => some number
  | _ => none

theorem step?_notes {number : Nat} (h : c.step? number = some following) :
    Notes c (c.Accounts (.step number)) following := by
  simp only [step?, bind, Option.bind_eq_some_iff] at h
  obtain ⟨task, htask, h⟩ := h
  split at h
  · cases h
  · next frame outer hframes =>
    simp only [Option.bind_eq_some_iff] at h
    obtain ⟨group, hgroup, h⟩ := h
    split at h
    · split at h
      · next outcome after hconsult =>
        cases h
        split
        · exact (Notes.remark (.silent rfl rfl) rfl).congr rfl rfl
        · exact .silent rfl rfl
      · cases h
        exact .silent rfl rfl
    · cases h
      exact .silent rfl rfl
    · split at h
      · cases h
        exact .silent rfl rfl
      · cases h
        exact .silent rfl rfl
      · cases h
    · next flight hstage =>
      cases h
      exact dispatch_notes htask hframes hgroup hstage
    · cases h
    · cases h
    · cases h
      exact .silent rfl rfl
    · next outcome hstage =>
      cases h
      refine handOn_notes ?_
      intro parent rest flight peer found fault houter hparent hfound houtcome
      subst houter houtcome
      exact .fallsBack _ number parent found peer fault
        (.handed number task frame parent rest flight peer fault htask hframes hstage hparent)
        hfound

theorem answerFetch?_notes {number : Nat} {answer : Outcome}
    (h : c.answerFetch? number answer = some following) :
    Notes c (c.Accounts (.answerFetch number answer)) following := by
  simp only [answerFetch?, bind, Option.bind_eq_some_iff] at h
  obtain ⟨task, htask, h⟩ := h
  split at h
  · next frame outer hframes =>
    split at h
    · next flight peer group hstage hgroup =>
      cases h
      refine takeFetched_notes (.silent rfl rfl) peer answer ?_
      rintro fault rfl
      exact .fallsBack _ number frame group peer fault
        (.answered number task frame outer flight peer fault htask hframes hstage) hgroup
    · cases h
  · cases h

theorem answerLoad?_notes {number : Nat} {answer : LoadAnswer}
    (h : c.answerLoad? number answer = some following) : Notes c accounted following := by
  simp only [answerLoad?, bind, Option.bind_eq_some_iff] at h
  obtain ⟨task, htask, h⟩ := h
  split at h
  · split at h
    · cases h
      split
      · exact (Notes.remark (.silent rfl rfl) rfl).congr rfl rfl
      · exact .silent rfl rfl
    · cases h
  · cases h

theorem breakOff?_notes {number depth : Nat} {reason : String}
    (h : c.breakOff? number depth reason = some following) :
    Notes c (c.Accounts (.breakOff number depth reason)) following := by
  simp only [breakOff?, bind, Option.bind_eq_some_iff] at h
  obtain ⟨task, htask, frame, hframe, h⟩ := h
  split at h
  · next flight peer group hstage hgroup =>
    cases h
    obtain ⟨served, flights, hserved, rfl⟩ := group_of_abandon hgroup
    refine takeFetched_notes (.silent (now_abandon c _) (events_abandon c _)) peer _ ?_
    rintro _ ⟨⟩ hfallback hfound hcancelled
    rw [idOf, nodes_abandon]
    exact .fallsBack _ number frame served peer _
      (.brokeOff number depth reason task frame flight peer htask hframe hstage) hserved hfallback
      hfound hcancelled
  · cases h

theorem expire?_notes {number : Nat} (h : c.expire? number = some following) :
    Notes c accounted following := by
  simp only [expire?, bind, Option.bind_eq_some_iff] at h
  obtain ⟨task, htask, deadline, hdeadline, h⟩ := h
  split at h
  · cases h
    exact finish_notes (.silent (by simp) (by simp)) _
  · cases h

theorem serve_notes (c : Cluster) (node : Nat) (method path : String) :
    Notes c accounted (c.serve node method path).2 := by
  unfold serve
  split
  · exact .silent rfl rfl
  · split
    · exact .silent rfl rfl
    · exact .silent rfl rfl
    · exact .silent rfl rfl
    · exact .silent rfl rfl
    · split
      · exact .silent rfl rfl
      · split <;> exact .silent rfl rfl

theorem getOrCreate_notes (c : Cluster) (node : Nat) (name : String) (settings : GroupSettings) :
    Notes c accounted (c.getOrCreate node name settings).2 := by
  unfold getOrCreate
  split <;> exact .silent rfl rfl

theorem heed?_notes {number depth : Nat} (h : c.heed? number depth = some following) :
    Notes c accounted following := by
  simp only [heed?, bind, Option.bind_eq_some_iff] at h
  obtain ⟨task, htask, frame, hframe, h⟩ := h
  split at h
  · cases h
    exact .silent (now_abandon c _) (events_abandon c _)
  · cases h

theorem drop_notes (c : Cluster) (number : Nat) : Notes c accounted (c.drop number) := by
  unfold drop
  split
  · exact .silent rfl rfl
  · split
    · exact .silent (now_abandon c _) (events_abandon c _)
    · exact .silent rfl rfl

/-- An action lets the clock stand still or go on, and every call that it records is accounted
for. -/
theorem act?_accounts (h : c.act? action = some following) :
    c.now ≤ following.now ∧ ∃ fresh, following.events.toList = c.events.toList ++ fresh ∧
      ∀ event ∈ fresh, event.call?.isSome → c.Accounts action event := by
  have hnotes : Notes c (c.Accounts action) following → c.now ≤ following.now ∧
      ∃ fresh, following.events.toList = c.events.toList ++ fresh ∧
        ∀ event ∈ fresh, event.call?.isSome → c.Accounts action event :=
    fun ⟨hnow, hevents⟩ ↦ ⟨Nat.le_of_eq hnow.symm, hevents⟩
  cases action with
  | step number => exact hnotes (step?_notes h)
  | answerFetch number answer => exact hnotes (answerFetch?_notes h)
  | breakOff number depth reason => exact hnotes (breakOff?_notes h)
  | answerLoad number answer => exact hnotes (answerLoad?_notes h)
  | expire number => exact hnotes (expire?_notes h)
  | serve node method path =>
      cases h
      exact hnotes (serve_notes c node method path)
  | create node name settings =>
      cases h
      exact hnotes (getOrCreate_notes c node name settings)
  | heed number depth => exact hnotes (heed?_notes h)
  | drop number =>
      cases h
      exact hnotes (drop_notes c number)
  | get node index key hearsToken cancelled timeout =>
      obtain ⟨group, hgroup, h⟩ := Option.bind_eq_some_iff.1 h
      cases h
      exact hnotes (.silent rfl rfl)
  | remove index key =>
      obtain ⟨group, hgroup, h⟩ := Option.bind_eq_some_iff.1 h
      cases h
      exact hnotes (.silent rfl rfl)
  | clear index =>
      obtain ⟨group, hgroup, h⟩ := Option.bind_eq_some_iff.1 h
      cases h
      exact hnotes (.silent rfl rfl)
  | advance span =>
      cases h
      exact ⟨Nat.le_add_right _ _, [], (List.append_nil _).symm, fun _ hmem ↦ nomatch hmem⟩
  | join | removeGroup | changePeers | connect | cancel =>
      cases h
      exact hnotes (.silent rfl rfl)

/-- A frame that finds nothing in the tiers may make a call. -/
theorem Misses.mayCall {number : Nat} {frame : Frame} {outer : List Frame} {group : Group}
    {node : Node} (h : c.Misses number frame outer group node) : c.MayCall number frame group := by
  obtain ⟨task, htask, hframes⟩ := h.task
  exact ⟨⟨task, htask, hframes ▸ List.mem_cons_self⟩, h.served, .inr ⟨h.stage, h.peek⟩⟩

/-- A frame whose fetch comes to a fault may make a call. -/
theorem FetchFails.mayCall {number : Nat} {frame : Frame} {peer : String} {fault : Fault}
    {group : Group} (h : c.FetchFails action number frame peer fault)
    (hgroup : c.groups[frame.group]? = some group) :
    action.mover? = some number ∧ c.MayCall number frame group := by
  have hcalls : ∀ {task : Task} {flight : Nat}, c.tasks[number]? = some task →
      frame ∈ task.frames → frame.stage = .leading flight (.fetching peer) →
      c.MayCall number frame group :=
    fun htask hmem hstage ↦ ⟨⟨_, htask, hmem⟩, hgroup, .inl ⟨_, .inr ⟨peer, hstage⟩⟩⟩
  cases h with
  | refused _ _ outer served node _ _ hmisses =>
      obtain rfl : served = group := Option.some.inj (hmisses.served.symm.trans hgroup)
      exact ⟨rfl, hmisses.mayCall⟩
  | handed _ task inner _ outer flight _ _ htask hframes _ hstage =>
      exact ⟨rfl, hcalls htask (hframes ▸ List.mem_cons_of_mem _ List.mem_cons_self) hstage⟩
  | answered _ task _ outer flight _ _ htask hframes hstage =>
      exact ⟨rfl, hcalls htask (hframes ▸ List.mem_cons_self) hstage⟩
  | brokeOff _ depth reason task _ flight _ htask hframe hstage =>
      exact ⟨rfl, hcalls htask (List.mem_of_getElem? hframe) hstage⟩

/-- A call that is accounted for is due for the task that the action moves. -/
theorem Accounts.due {event : Event} {call : String × String × String}
    (h : c.Accounts action event) (hcall : event.call? = some call) :
    ∃ number, action.mover? = some number ∧ c.Due number call := by
  have hid : ∀ {number : Nat} {frame : Frame} {outer : List Frame} {group : Group} {node : Node},
      c.Misses number frame outer group node → c.idOf frame.node = node.id := by
    intro number frame outer group node hmisses
    rw [idOf, hmisses.home]
    rfl
  cases h with
  | fetches number frame outer group node peer hmisses =>
      cases hcall
      exact ⟨number, rfl, frame, group, hmisses.mayCall, by rw [hid hmisses]⟩
  | loads number frame outer group node hmisses =>
      cases hcall
      exact ⟨number, rfl, frame, group, hmisses.mayCall, by rw [hid hmisses]⟩
  | fallsBack _ number frame group peer fault hfails hgroup =>
      cases hcall
      obtain ⟨hmover, hmay⟩ := hfails.mayCall hgroup
      exact ⟨number, hmover, frame, group, hmay, rfl⟩

/-- An action lets the clock stand still or go on, and every call that it records is due for the
task that it moves. -/
theorem act?_notes (h : c.act? action = some following) :
    c.now ≤ following.now ∧ ∃ fresh, following.events.toList = c.events.toList ++ fresh ∧
      ∀ event ∈ fresh, ∀ call, event.call? = some call →
        ∃ number, action.mover? = some number ∧ c.Due number call := by
  obtain ⟨hnow, fresh, hfresh, haccounts⟩ := act?_accounts h
  refine ⟨hnow, fresh, hfresh, fun event hevent call hcall ↦ ?_⟩
  exact (haccounts event hevent (Option.isSome_iff_exists.2 ⟨call, hcall⟩)).due hcall

end Cluster

end ReadThrough
