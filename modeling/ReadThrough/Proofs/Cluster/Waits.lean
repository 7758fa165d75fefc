import Mathlib.Data.Fintype.Card
import Mathlib.Data.Fintype.EquivFin
import Mathlib.Logic.Relation
import ReadThrough.Proofs.Cluster.Course
import ReadThrough.Proofs.Cluster.Crews
import ReadThrough.Proofs.Cluster.Hops

/-!
# Flights that wait on each other

A flight waits on another one while its leader fetches its key and the get on the peer leads the
other flight or waits on it. The get there goes by the ring of its own node, so where the rings of
the nodes differ a flight may come to wait on itself. The main statement is `waits_only_in_circles`:
it does so only if its key has been forwarded in a circle of nodes, each of which took the next one
for the owner, and where no task can go on, every pending get waits on such a flight.
-/

namespace ReadThrough

open Relation

/-- A frame leads a flight of a group or waits on it. -/
def Frame.Engages (frame : Frame) (flight : Nat × Nat) : Prop :=
  frame.group = flight.1 ∧
    (frame.stage = .waiting flight.2 ∨ ∃ errand, frame.stage = .leading flight.2 errand)

namespace Cluster

variable {c following : Cluster} {action : Action} {number : Nat}

/-- A node has forwarded a key of a group of a name to another node: a get that led a flight there
found nothing in the tiers, the ring of the node gave the key to a peer, and the fetch from the peer
came to the other node. -/
def SentOn (past : List Moment) (name key : String) (node other : Nat) : Prop :=
  ∃ moment ∈ past, ∃ (number : Nat) (frame : Frame) (outer : List Frame) (group : Group)
    (sender : Node) (peer : String) (target : Nat),
    moment.before.Misses number frame outer group sender ∧ frame.node = node ∧
      group.name = name ∧ frame.key = key ∧
      sender.membership.ring.owner? (utf8 key) = some peer ∧
      moment.before.route peer name = .ok (other, target) ∧
      moment.after.events = moment.before.events.push (.fetch sender.id peer name key)

/-- A flight waits on another one: the frame inside of its leader leads the other flight or waits on
it. A flight is told by its group and its number there. -/
def WaitsOn (c : Cluster) (flight other : Nat × Nat) : Prop :=
  ∃ (number : Nat) (task : Task) (inner outer : Frame) (rest : List Frame),
    c.tasks[number]? = some task ∧ inner :: outer :: rest <:+ task.frames ∧
    outer.Flies flight.1 flight.2 ∧ inner.Engages other

/-- A flight is for a key of a group of a name: a frame leads it, and every frame that leads it or
waits on it is for them. -/
structure Concerns (c : Cluster) (flight : Nat × Nat) (name key : String) : Prop where
  led : ∃ number frame, c.HasFrame number frame ∧ frame.Flies flight.1 flight.2
  engages : ∀ (number : Nat) (frame : Frame), c.HasFrame number frame → frame.Engages flight →
    frame.key = key ∧ ∃ group, c.groups[frame.group]? = some group ∧ group.name = name

/-- The innermost frame of a task waits on a flight that is aloft. -/
def Pends (c : Cluster) (number : Nat) (flight : Nat × Nat) : Prop :=
  ∃ frame group, c.Innermost number frame group ∧ frame.stage = .waiting flight.2 ∧
    frame.group = flight.1 ∧ c.HasAloft flight.1 flight.2

/-- No task can go on, although loaders and peers outside of the cluster answer at once. -/
def Settled (c : Cluster) : Prop :=
  ∀ number, c.step? number = none ∧ (∀ answer, c.answerLoad? number answer = none) ∧
    ∀ answer, c.answerFetch? number answer = none

/-- A group belongs to the node it is made on, and gets on it begin there. -/
def AtHome (home : Nat → Nat) (c : Cluster) : Action → Prop
  | .get node index _ _ _ _ => home index = node
  | .create node name _ => c.group? node name = none → home c.groups.size = node
  | _ => True

instance (home : Nat → Nat) (c : Cluster) (action : Action) :
    Decidable (AtHome home c action) := by
  cases action <;> unfold AtHome <;> infer_instance

/-! ## Where frames are, and how they come to be inside of others -/

/-- The node of one frame has forwarded a key to that of the other frame, and is still fetching. -/
def Hop (past : List Moment) (goal : String × String) (inner outer : Frame) : Prop :=
  ∃ flight peer, outer.stage = .leading flight (.fetching peer) ∧
    SentOn past goal.1 goal.2 outer.node inner.node

/-- Groups and frames are where they belong, and each frame inside of another one is at the node
that the other one fetches from. -/
structure Homed (home : Nat → Nat) (goals : Nat → String × String) (past : List Moment)
    (c : Cluster) : Prop where
  registry : ∀ (index : Nat) (node : Node) (entry : String × Nat), c.nodes[index]? = some node →
    entry ∈ node.registry → home entry.2 = index
  frames : ∀ (number : Nat) (frame : Frame), c.HasFrame number frame →
    frame.node = home frame.group
  hops : ∀ (number : Nat) (task : Task) (inner outer : Frame) (rest : List Frame),
    c.tasks[number]? = some task → inner :: outer :: rest <:+ task.frames →
    Hop past (goals number) inner outer

variable {home : Nat → Nat} {keys : Nat → Nat → String} {goals goals' : Nat → String × String}
  {past : List Moment}

/-- A group that a name stands for on a node is at home there. -/
theorem Homed.of_group? (h : Homed home goals past c) {node index : Nat} {name : String}
    (hindex : c.group? node name = some index) : home index = node := by
  obtain ⟨found, hfound, hlookup⟩ := Option.bind_eq_some_iff.1 hindex
  exact h.registry node found (name, index) hfound (mem_of_lookup hlookup)

/-- What was forwarded stays so. -/
theorem SentOn.cons {name key : String} {node other : Nat}
    (h : SentOn past name key node other) (moment : Moment) :
    SentOn (moment :: past) name key node other := by
  obtain ⟨found, hmem, hforwards⟩ := h
  exact ⟨found, List.mem_cons_of_mem _ hmem, hforwards⟩

/-- What is registered after a move was registered before, on the same node, or is a group that is
made there now. -/
theorem Move.registry (move : Move c action following) {index : Nat} {node : Node}
    {entry : String × Nat} (hnode : following.nodes[index]? = some node)
    (hentry : entry ∈ node.registry) :
    (∃ before, c.nodes[index]? = some before ∧ entry ∈ before.registry) ∨
      ∃ name settings, action = .create index name settings ∧ c.group? index name = none ∧
        entry.2 = c.groups.size := by
  by_cases hkeeps : action.rewires = false
  · rw [move.nodes_eq hkeeps] at hnode
    exact .inl ⟨node, hnode, hentry⟩
  cases move with
  | added membership carrier basePath requestTimeout =>
      rcases cases_addNode hnode with rfl | hold
      · cases hentry
      · exact .inl ⟨node, hold, hentry⟩
  | created other name settings hnone =>
      simp only [modifyNode, Array.getElem?_modify] at hnode
      split at hnode
      · next heq =>
        subst heq
        obtain ⟨before, hbefore, rfl⟩ := Option.map_eq_some_iff.1 hnode
        rcases mem_register hentry with rfl | hold
        · exact .inr ⟨name, settings, rfl, hnone, rfl⟩
        · exact .inl ⟨before, hbefore, hold⟩
      · exact .inl ⟨node, hnode, hentry⟩
  | rewired _ other change hchange =>
      simp only [modifyNode, Array.getElem?_modify] at hnode
      split at hnode
      · obtain ⟨before, hbefore, rfl⟩ := Option.map_eq_some_iff.1 hnode
        exact .inl ⟨before, hbefore, (hchange before).2.2 entry hentry⟩
      · exact .inl ⟨node, hnode, hentry⟩
  | stayed _ _ hgroups htasks hnodes => exact .inl ⟨node, hnodes ▸ hnode, hentry⟩
  | turned _ _ _ _ _ _ _ _ _ _ _ _ hturn => cases hturn <;> exact absurd rfl hkeeps
  | _ => exact absurd rfl hkeeps

/-- Every action keeps groups and frames where they belong. -/
theorem Homed.act (h : Homed home goals past c) (hsound : Sound anyOutcome keys goals c)
    (hgoals : ∀ number < c.tasks.size, goals' number = goals number)
    (hhome : AtHome home c action) (hact : c.act? action = some following) :
    Homed home goals' (⟨c, action, following⟩ :: past) following := by
  have move := act?_move hact
  refine ⟨?_, ?_, ?_⟩
  · intro index node entry hnode hentry
    rcases move.registry hnode hentry with ⟨before, hbefore, hold⟩ |
      ⟨name, settings, rfl, hnone, hnew⟩
    · exact h.registry index before entry hbefore hold
    · rw [hnew]
      exact hhome hnone
  · rintro number frame ⟨task, htask, hmem⟩
    rcases move.restacks htask with
      ⟨before, hbefore, hrestacked⟩ | ⟨-, hnone | ⟨first, hone, hbegins⟩⟩
    · have hold {frame : Frame} (hframe : frame ∈ before.frames) : frame.node = home frame.group :=
        h.frames number frame ⟨before, hbefore, hframe⟩
      generalize task.frames = frames at hmem hrestacked
      cases hrestacked with
      | left _ hleft => exact hold (hleft.subset hmem)
      | restaged moved outer stage hwithin hpassage =>
          rcases List.mem_cons.1 hmem with rfl | hmem
          · have hplace := hold (hwithin.subset List.mem_cons_self)
            exact hplace
          · exact hold (hwithin.subset (List.mem_cons_of_mem _ hmem))
      | forwarded moved outer group served flight home peer sharesToken node target hframes hmisses
          hstage hpick hcarrier hroute =>
          rcases List.mem_cons.1 hmem with rfl | hmem
          · exact (h.of_group? (route_ok hroute).2).symm
          · rcases List.mem_cons.1 hmem with rfl | hmem
            · have hmoved : moved ∈ before.frames := hframes ▸ List.mem_cons_self
              have hplace := hold hmoved
              exact hplace
            · exact hold (hframes ▸ List.mem_cons_of_mem _ hmem)
    · rw [hnone] at hmem
      cases hmem
    · rw [hone] at hmem
      obtain rfl := List.mem_singleton.1 hmem
      cases hbegins with
      | asked => exact hhome.symm
      | requested _ _ _ _ _ _ _ _ hindex => exact (h.of_group? hindex).symm
  · intro number task inner outer rest htask hframes
    cases move.adjoins htask hframes with
    | kept before first _ stage hbefore hwithin =>
        rw [hgoals number (Array.getElem?_eq_some_iff.1 hbefore).1]
        obtain ⟨flight, peer, hstage, hsent⟩ :=
          h.hops number before first outer rest hbefore hwithin
        exact ⟨flight, peer, hstage, hsent.cons _⟩
    | forwarded frame group served flight node peer sharesToken index target hmisses hpick hroute
        hserved hevents =>
        obtain ⟨before, hbefore, hold⟩ := hmisses.task
        obtain ⟨hname, hkey, -⟩ := hsound.fits hbefore (hold ▸ List.mem_cons_self) hmisses.served
        rw [hgoals number (Array.getElem?_eq_some_iff.1 hbefore).1]
        refine ⟨flight, peer, rfl, ⟨c, action, following⟩, List.mem_cons_self, number, frame, rest,
          group, node, peer, target, hmisses, rfl, hname, hkey, ?_⟩
        rw [← hname, ← hkey]
        exact ⟨(owner?_of_pick hpick).1, hroute, hevents⟩

/-- What a flight is for: the name of its group and its key. -/
def goalOf (c : Cluster) (keys : Nat → Nat → String) (flight : Nat × Nat) :
    Option (String × String) :=
  (c.groups[flight.1]?).map fun group ↦ (group.name, keys flight.1 flight.2)

/-- The frames of a task are all for one key of groups of one name. -/
theorem Sound.same_goal (h : Sound anyOutcome keys goals c) {task : Task} {frame : Frame}
    {group : Group} (htask : c.tasks[number]? = some task) (hmem : frame ∈ task.frames)
    (hgroup : c.groups[frame.group]? = some group) :
    ∀ other ∈ task.frames, other.key = frame.key ∧
      ∃ found, c.groups[other.group]? = some found ∧ found.name = group.name := by
  intro other hother
  obtain ⟨hname, hkey, -⟩ := h.fits htask hmem hgroup
  obtain ⟨found, hfound, hname', hkey', -⟩ := h.frames number task htask other hother
  exact ⟨hkey'.trans hkey.symm, found, hfound, hname'.trans hname.symm⟩

/-- A frame engages in flights for what its task is for. -/
theorem Sound.goalOf_engages (h : Sound anyOutcome keys goals c) {task : Task} {frame : Frame}
    (htask : c.tasks[number]? = some task) (hmem : frame ∈ task.frames) {flight : Nat × Nat}
    (hengages : frame.Engages flight) : c.goalOf keys flight = some (goals number) := by
  obtain ⟨group, hgroup, hname, hkey, hfits⟩ := h.frames number task htask frame hmem
  obtain ⟨index, flight⟩ := flight
  obtain ⟨hindex, hstage⟩ := hengages
  dsimp only at hindex hstage
  subst hindex
  have hflight : keys frame.group flight = frame.key := by
    rcases hstage with hstage | ⟨errand, hstage⟩
    · rw [hstage] at hfits
      exact hfits.2
    · rw [hstage] at hfits
      exact hfits.1.2
  rw [goalOf, hgroup, Option.map_some, hname, hflight, hkey]

theorem engages_of_flies {frame : Frame} {flight : Nat × Nat}
    (h : frame.Flies flight.1 flight.2) : frame.Engages flight :=
  ⟨h.1, .inr h.2⟩

/-- A flight that is led is for what the flights of its number are. -/
theorem Sound.concerns (h : Sound anyOutcome keys goals c) {flight : Nat × Nat} {name key : String}
    (hled : ∃ number frame, c.HasFrame number frame ∧ frame.Flies flight.1 flight.2)
    (hgoal : c.goalOf keys flight = some (name, key)) : c.Concerns flight name key where
  led := hled
  engages := by
    rintro number frame ⟨task, htask, hmem⟩ hengages
    have hsame := hgoal.symm.trans (h.goalOf_engages htask hmem hengages)
    obtain ⟨group, hgroup, hname, hkey, -⟩ := h.frames number task htask frame hmem
    rw [← Option.some.inj hsame] at hname hkey
    exact ⟨hkey, group, hgroup, hname⟩

theorem WaitsOn.led {flight other : Nat × Nat} (h : c.WaitsOn flight other) :
    ∃ number frame, c.HasFrame number frame ∧ frame.Flies flight.1 flight.2 := by
  obtain ⟨number, task, inner, outer, rest, htask, hframes, hflies, -⟩ := h
  have hmem : outer ∈ task.frames :=
    hframes.subset (List.mem_cons_of_mem _ List.mem_cons_self)
  exact ⟨number, outer, ⟨task, htask, hmem⟩, hflies⟩

/-- Flights that wait on each other are for one name and key, which the node of the first one has
forwarded to that of the second one. -/
theorem Homed.sentOn (h : Homed home goals past c) (hsound : Sound anyOutcome keys goals c)
    {flight other : Nat × Nat} (hwaits : c.WaitsOn flight other) :
    ∃ name key, c.goalOf keys flight = some (name, key) ∧ c.goalOf keys other = some (name, key) ∧
      SentOn past name key (home flight.1) (home other.1) := by
  obtain ⟨number, task, inner, outer, rest, htask, hframes, hflies, hengages⟩ := hwaits
  have hinner : inner ∈ task.frames := hframes.subset List.mem_cons_self
  have houter : outer ∈ task.frames :=
    hframes.subset (List.mem_cons_of_mem _ List.mem_cons_self)
  obtain ⟨landing, peer, -, hsent⟩ := h.hops number task inner outer rest htask hframes
  rw [h.frames number outer ⟨task, htask, houter⟩, hflies.1,
    h.frames number inner ⟨task, htask, hinner⟩, hengages.1] at hsent
  exact ⟨_, _, hsound.goalOf_engages htask houter (engages_of_flies hflies),
    hsound.goalOf_engages htask hinner hengages, hsent⟩

/-- Where flights wait on each other in turn, their key has been forwarded from node to node. -/
theorem Homed.transGen (h : Homed home goals past c) (hsound : Sound anyOutcome keys goals c)
    {flight other : Nat × Nat} (hwaits : TransGen c.WaitsOn flight other) :
    ∃ name key, c.goalOf keys flight = some (name, key) ∧ c.goalOf keys other = some (name, key) ∧
      TransGen (SentOn past name key) (home flight.1) (home other.1) := by
  induction hwaits with
  | single hone =>
      obtain ⟨name, key, hfirst, hlast, hsent⟩ := h.sentOn hsound hone
      exact ⟨name, key, hfirst, hlast, .single hsent⟩
  | tail _ hone ih =>
      obtain ⟨name, key, hfirst, hmiddle, hsent⟩ := ih
      obtain ⟨_, _, hsame, hlast, hnext⟩ := h.sentOn hsound hone
      rw [hmiddle] at hsame
      cases hsame
      exact ⟨name, key, hfirst, hlast, hsent.tail hnext⟩

/-- The key of a flight that waits on itself has been forwarded in a circle. -/
theorem Homed.circle (h : Homed home goals past c) (hsound : Sound anyOutcome keys goals c)
    {flight : Nat × Nat} (hwaits : TransGen c.WaitsOn flight flight) :
    ∃ name key, c.goalOf keys flight = some (name, key) ∧ c.Concerns flight name key ∧
      TransGen (SentOn past name key) (home flight.1) (home flight.1) := by
  obtain ⟨name, key, hgoal, -, hsent⟩ := h.transGen hsound hwaits
  obtain ⟨other, hone, -⟩ := TransGen.head'_iff.1 hwaits
  exact ⟨name, key, hgoal, hsound.concerns hone.led hgoal, hsent⟩

/-! ## What a task waits for -/

/-- A task waits for one flight at a time. -/
theorem Pends.unique {flight other : Nat × Nat} (h : c.Pends number flight)
    (h' : c.Pends number other) : flight = other := by
  obtain ⟨frame, group, ⟨task, outer, htask, hframes, -⟩, hstage, hindex, -⟩ := h
  obtain ⟨frame', group', ⟨task', outer', htask', hframes', -⟩, hstage', hindex', -⟩ := h'
  rw [htask] at htask'
  cases htask'
  rw [hframes] at hframes'
  cases hframes'
  rw [hstage] at hstage'
  exact Prod.ext (hindex.symm.trans hindex') (FrameStage.waiting.inj hstage')

theorem Pends.lt {flight : Nat × Nat} (h : c.Pends number flight) : number < c.tasks.size := by
  obtain ⟨frame, group, ⟨task, outer, htask, -⟩, -⟩ := h
  exact (Array.getElem?_eq_some_iff.1 htask).1

/-- A task with a frame that cannot go on waits for a flight that is aloft. -/
theorem Settled.pends (h : c.Settled) (hsound : Sound anyOutcome keys goals c) {task : Task}
    (htask : c.tasks[number]? = some task) (hframes : task.frames ≠ []) :
    ∃ flight, c.Pends number flight := by
  obtain ⟨hstep, hload, hfetch⟩ := h number
  obtain ⟨frame, outer, hcons⟩ := List.exists_cons_of_ne_nil hframes
  obtain ⟨group, hgroup, -⟩ :=
    hsound.frames number task htask frame (hcons ▸ List.mem_cons_self)
  simp only [step?, htask, hcons, hgroup, bind, Option.bind_some] at hstep
  cases hstage : frame.stage with
  | asked =>
      simp only [hstage] at hstep
      split at hstep <;> cases hstep
  | missed => simp [hstage] at hstep
  | waiting flight =>
      simp only [hstage] at hstep
      split at hstep
      · cases hstep
      · cases hstep
      · next haloft =>
        exact ⟨(frame.group, flight), frame, group, ⟨task, outer, htask, hcons, hgroup⟩, hstage,
          rfl, group, hgroup, FlightTable.status_eq_aloft.1 haloft⟩
  | answered outcome => simp [hstage] at hstep
  | leading flight errand =>
      cases errand with
      | recheck => simp [hstage] at hstep
      | done outcome => simp [hstage] at hstep
      | loading =>
          have hanswer := hload (.error .notFound)
          simp [answerLoad?, htask, hcons, hstage, hgroup] at hanswer
      | fetching peer =>
          have hanswer := hfetch (.error .cancelled)
          simp [answerFetch?, htask, hcons, hstage, hgroup] at hanswer

/-- The flights that the outer frames of a task lead wait, in turn, on what the inner one engages
in. -/
theorem Homed.chain (h : Homed home goals past c) {task : Task} (htask : c.tasks[number]? = some task)
    {outer : List Frame} {inner frame : Frame} {flight other : Nat × Nat}
    (hframes : inner :: outer <:+ task.frames) (hengages : inner.Engages other)
    (hmem : frame ∈ outer) (hflies : frame.Flies flight.1 flight.2) :
    TransGen c.WaitsOn flight other := by
  induction outer generalizing inner other with
  | nil => cases hmem
  | cons first rest ih =>
      rcases List.mem_cons.1 hmem with rfl | hmem
      · exact .single ⟨number, task, inner, frame, rest, htask, hframes, hflies, hengages⟩
      · -- the frames in between fetch, so each leads a flight of its own
        obtain ⟨landing, peer, hstage, -⟩ := h.hops number task inner first rest htask hframes
        have hfirst : first.Flies first.group landing := ⟨rfl, _, hstage⟩
        have hengaged : first.Engages (first.group, landing) := engages_of_flies hfirst
        have hrest := ih ((List.suffix_cons _ _).trans hframes) hengaged hmem
        exact hrest.tail ⟨number, task, inner, first, rest, htask, hframes, hfirst, hengages⟩

/-- Where no task can go on, the flight that a task waits for waits in turn on one that another task
waits for. -/
theorem Settled.next (h : c.Settled) (hsound : Sound anyOutcome keys goals c)
    (hhomed : Homed home goals past c) (hcrewed : Crewed c) {flight : Nat × Nat}
    (hpends : c.Pends number flight) :
    ∃ leader other, c.Pends leader other ∧ TransGen c.WaitsOn flight other := by
  obtain ⟨-, -, -, -, -, haloft⟩ := hpends
  obtain ⟨leader, frame, ⟨task, htask, hmem⟩, hflies⟩ := hcrewed.led _ _ haloft
  obtain ⟨other, hleader⟩ := h.pends hsound htask (List.ne_nil_of_mem hmem)
  have hwaiting := hleader
  obtain ⟨waiting, group, ⟨found, outer, hfound, hframes, -⟩, hstage, hindex, -⟩ := hwaiting
  rw [htask] at hfound
  cases hfound
  refine ⟨leader, other, hleader, ?_⟩
  rw [hframes] at hmem
  rcases List.mem_cons.1 hmem with rfl | hmem
  · obtain ⟨errand, hleads⟩ := hflies.2
    cases hstage.symm.trans hleads
  · exact hhomed.chain htask (hframes ▸ List.suffix_rfl) ⟨hindex, .inl hstage⟩ hmem hflies

/-- A flight that waits on itself is waited for in turn from a flight on. -/
def Circles (c : Cluster) (flight : Nat × Nat) : Prop :=
  ∃ stuck, ReflTransGen c.WaitsOn flight stuck ∧ TransGen c.WaitsOn stuck stuck

/-- Where no task can go on, what a task waits for comes round to itself: there are finitely many
tasks to wait for in turn. -/
theorem Settled.circles (h : c.Settled) (hsound : Sound anyOutcome keys goals c)
    (hhomed : Homed home goals past c) (hcrewed : Crewed c) {flight : Nat × Nat}
    (hpends : c.Pends number flight) : c.Circles flight := by
  -- a task precedes another one that waits, in turn, for what it waits for, outside of circles
  let precedes (first second : Fin c.tasks.size) : Prop :=
    ∃ flight other, c.Pends second flight ∧ c.Pends first other ∧
      TransGen c.WaitsOn flight other ∧ ¬c.Circles flight
  have htrans : IsTrans (Fin c.tasks.size) precedes := by
    constructor
    rintro first second third ⟨middle, inner, hmiddle, hinner, hwaits, -⟩
      ⟨outer, other, houter, hother, hwaits', hnone⟩
    obtain rfl := hmiddle.unique hother
    exact ⟨outer, inner, houter, hinner, hwaits'.trans hwaits, hnone⟩
  have hirrefl : Std.Irrefl precedes := by
    constructor
    rintro first ⟨flight, other, hflight, hother, hwaits, hnone⟩
    obtain rfl := hflight.unique hother
    exact hnone ⟨flight, .refl, hwaits⟩
  have hwf := Finite.wellFounded_of_trans_of_irrefl precedes
  have hall : ∀ (number : Fin c.tasks.size) (flight : Nat × Nat), c.Pends number flight →
      c.Circles flight := by
    intro number
    induction number using hwf.induction with
    | h number ih =>
        intro flight hpends
        by_contra hnone
        obtain ⟨leader, other, hleader, hwaits⟩ := h.next hsound hhomed hcrewed hpends
        obtain ⟨stuck, hreaches, hstuck⟩ :=
          ih ⟨leader, hleader.lt⟩ ⟨flight, other, hpends, hleader, hwaits, hnone⟩ other hleader
        exact hnone ⟨stuck, hwaits.to_reflTransGen.trans hreaches, hstuck⟩
  exact hall ⟨number, hpends.lt⟩ flight hpends

/-- What is for one goal waits in turn for what is for the same goal. -/
theorem Homed.goalOf_eq (h : Homed home goals past c) (hsound : Sound anyOutcome keys goals c)
    {flight other : Nat × Nat} (hwaits : ReflTransGen c.WaitsOn flight other) :
    c.goalOf keys other = c.goalOf keys flight := by
  rcases reflTransGen_iff_eq_or_transGen.1 hwaits with rfl | hwaits
  · rfl
  · obtain ⟨name, key, hfirst, hlast, -⟩ := h.transGen hsound hwaits
    rw [hfirst, hlast]

/-- Where no task can go on, one with a frame waits for a flight that waits on itself, and that is
for the name and the key of its frames. -/
theorem Settled.stuck (h : c.Settled) (hsound : Sound anyOutcome keys goals c)
    (hhomed : Homed home goals past c) (hcrewed : Crewed c) {task : Task}
    (htask : c.tasks[number]? = some task) (hframes : task.frames ≠ []) :
    ∃ frame group flight stuck, c.Innermost number frame group ∧
      (∀ other ∈ task.frames, other.key = frame.key ∧
        ∃ found, c.groups[other.group]? = some found ∧ found.name = group.name) ∧
      c.Pends number flight ∧ ReflTransGen c.WaitsOn flight stuck ∧
      TransGen c.WaitsOn stuck stuck ∧ c.Concerns stuck group.name frame.key ∧
      TransGen (SentOn past group.name frame.key) (home stuck.1) (home stuck.1) := by
  obtain ⟨flight, hpends⟩ := h.pends hsound htask hframes
  obtain ⟨stuck, hreaches, hstuck⟩ := h.circles hsound hhomed hcrewed hpends
  obtain ⟨name, key, hgoal, hconcerns, hsent⟩ := hhomed.circle hsound hstuck
  have hwaiting := hpends
  obtain ⟨frame, group, ⟨found, outer, hfound, hcons, hgroup⟩, hstage, hindex, -⟩ := hwaiting
  rw [htask] at hfound
  cases hfound
  have hmem : frame ∈ task.frames := hcons ▸ List.mem_cons_self
  have hengages : frame.Engages flight := ⟨hindex, .inl hstage⟩
  have hsame := hsound.same_goal htask hmem hgroup
  -- what the flight is for goes along with the waiting
  rw [hhomed.goalOf_eq hsound hreaches, hsound.goalOf_engages htask hmem hengages] at hgoal
  obtain ⟨hname, hkey, -⟩ := hsound.fits htask hmem hgroup
  rw [Option.some.inj hgoal] at hname hkey
  dsimp only at hname hkey
  subst hname hkey
  exact ⟨frame, group, flight, stuck, ⟨task, outer, htask, hcons, hgroup⟩, hsame, hpends, hreaches,
    hstuck, hconcerns, hsent⟩

/-- Two nodes of which each takes the other one for the owner of every key. The first one has a get,
which goes to the second one and comes back. -/
def entangled : Cluster :=
  (empty.actAll?
    ([.join (.alone "a" 1 fun _ ↦ 0) (.network true) "/" 1000,
      .join (.alone "b" 1 fun _ ↦ 0) (.network true) "/" 1000, .create 0 "g" .default,
      .create 1 "g" .default, .changePeers 0 (.set ["b"]), .changePeers 1 (.set ["a"]),
      .get 0 0 "k" true false none] ++ List.replicate 8 (.step 0))).get (by decide +kernel)

/-- The get is at the first node, forwarded to the second one, and back at the first one, where it
waits for the flight that it leads. -/
theorem entangled_frames : ∃ task, entangled.tasks[0]? = some task ∧ task.frames =
    [⟨0, 0, "k", true, .waiting 0⟩, ⟨1, 1, "k", true, .leading 0 (.fetching "a")⟩,
      ⟨0, 0, "k", true, .leading 0 (.fetching "b")⟩] :=
  Option.map_eq_some_iff.1 (by decide +kernel)

/-- What was forwarded is on record as a fetch from one node by the other. -/
theorem Course.sentOn {name key : String} {node other : Nat} (course : Course empty c past)
    (h : SentOn past name key node other) : ∃ id peer, c.Named node id ∧ c.Named other peer ∧
      .fetch id peer name key ∈ c.events.toList := by
  induction course with
  | here =>
      obtain ⟨moment, hmem, -⟩ := h
      cases hmem
  | next course hact ih =>
      have move := act?_move hact
      obtain ⟨moment, hmem, hforwards⟩ := h
      rcases List.mem_cons.1 hmem with rfl | hmem
      · obtain ⟨number, frame, outer, group, sender, peer, target, hmisses, rfl, -, -, -, hroute,
          hevents⟩ := hforwards
        have hid : Named _ frame.node sender.id := ⟨sender, hmisses.home, rfl⟩
        refine ⟨sender.id, peer, hid.move move, (route_ok hroute).1.move move, ?_⟩
        dsimp only at hevents
        rw [hevents, Array.toList_push]
        exact List.mem_append_right _ (List.mem_singleton_self _)
      · obtain ⟨id, peer, hid, hpeer, hfetch⟩ := ih ⟨moment, hmem, hforwards⟩
        obtain ⟨-, fresh, hfresh, -⟩ := act?_accounts hact
        exact ⟨id, peer, hid.move move, hpeer.move move,
          hfresh ▸ List.mem_append_left fresh hfetch⟩

end Cluster

end ReadThrough
