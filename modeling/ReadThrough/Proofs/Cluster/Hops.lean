import ReadThrough.Proofs.Cluster.Frames

/-!
# One hop where the nodes agree

Nodes that hold the same ring content send a key to the same owner, and the owner sends it nowhere.
So a get goes on in at most one other node at a time, and a loader other than the owner's is called
only where a fetch from the owner has failed and the group falls back. The main statement is
`one_hop`.
-/

namespace ReadThrough

namespace Cluster

variable {c following : Cluster} {action : Action} {number : Nat}

/-! ## Names of nodes -/

/-- There is a node of a name at an index. -/
def Named (c : Cluster) (index : Nat) (id : String) : Prop :=
  ∃ node, c.nodes[index]? = some node ∧ node.id = id

theorem Named.unique {index : Nat} {id other : String} (h : c.Named index id)
    (h' : c.Named index other) : id = other := by
  obtain ⟨node, hnode, rfl⟩ := h
  obtain ⟨found, hfound, rfl⟩ := h'
  rw [hnode] at hfound
  cases hfound
  rfl

theorem Named.idOf {index : Nat} {id : String} (h : c.Named index id) : c.idOf index = id := by
  obtain ⟨node, hnode, rfl⟩ := h
  rw [Cluster.idOf, hnode]
  rfl

/-- A node that is changed without its name is there under its name. -/
theorem Named.modifyNode {index node : Nat} {id : String} (h : c.Named index id)
    {change : Node → Node} (hchange : ∀ n, (change n).id = n.id) :
    (c.modifyNode node change).Named index id := by
  obtain ⟨found, hfound, rfl⟩ := h
  by_cases heq : node = index
  · refine ⟨change found, ?_, hchange found⟩
    rw [Cluster.modifyNode, Array.getElem?_modify, if_pos heq, hfound]
    rfl
  · refine ⟨found, ?_, rfl⟩
    rw [Cluster.modifyNode, Array.getElem?_modify, if_neg heq, hfound]

/-- Nodes keep their names. -/
theorem Named.move {index : Nat} {id : String} (h : c.Named index id)
    (move : Move c action following) : following.Named index id := by
  by_cases hkeeps : action.rewires = false
  · unfold Named
    rw [move.nodes_eq hkeeps]
    exact h
  cases move with
  | added membership carrier basePath requestTimeout =>
      obtain ⟨node, hnode, hid⟩ := h
      refine ⟨node, ?_, hid⟩
      rw [addNode, Array.getElem?_push,
        if_neg (Nat.ne_of_lt (Array.getElem?_eq_some_iff.1 hnode).1), hnode]
  | created => exact Named.modifyNode h fun _ ↦ rfl
  | rewired _ node change hchange => exact h.modifyNode fun n ↦ (hchange n).2.1
  | stayed _ _ hgroups htasks hnodes =>
      unfold Named
      rw [hnodes]
      exact h
  | turned _ _ _ _ _ _ _ _ _ _ _ _ hturn => cases hturn <;> exact absurd rfl hkeeps
  | _ => exact absurd rfl hkeeps

/-- A fetch that goes out over the network reaches a node of the name it is sent to, and a group
registered there. -/
theorem route_ok {peer name : String} {node target : Nat}
    (h : c.route peer name = .ok (node, target)) :
    c.Named node peer ∧ c.group? node name = some target := by
  unfold route at h
  split at h
  · cases h
  · next index hindex =>
    split at h
    · cases h
    · next found hfound =>
      cases h
      obtain ⟨hlt, hnode, -⟩ := Array.findIdx?_eq_some_iff_getElem.1 hindex
      simp only [Bool.and_eq_true, decide_eq_true_eq] at hnode
      exact ⟨⟨_, Array.getElem?_eq_getElem hlt, hnode.1⟩, hfound⟩

/-! ## Agreement -/

/-- Every node has the content of one ring, and a transport. -/
def Agreed (ring : Ring) (c : Cluster) : Prop :=
  ∀ (index : Nat) (node : Node), c.nodes[index]? = some node → node.carrier ≠ .absent ∧
    node.membership.ring.hash = ring.hash ∧ node.membership.ring.placements = ring.placements

variable {ring : Ring} {index : Nat} {node : Node} {key peer : String}

theorem Agreed.owner?_eq (h : Agreed ring c) (hnode : c.nodes[index]? = some node) :
    node.membership.ring.owner? (utf8 key) = ring.owner? (utf8 key) := by
  obtain ⟨-, hhash, hplacements⟩ := h index node hnode
  rw [Ring.owner?, Ring.owner?, Ring.serving?, Ring.serving?, hhash, hplacements]

/-- The peer that a node picks is the owner of the key on the ring of the node, and another node. -/
theorem owner?_of_pick {membership : Membership} (hpick : membership.pick key = .peer peer) :
    membership.ring.owner? (utf8 key) = some peer ∧ membership.selfId ≠ peer := by
  unfold Membership.pick at hpick
  split at hpick
  · next owner howner =>
    split at hpick
    · cases hpick
    · next hother =>
      cases hpick
      exact ⟨howner, Ne.symm hother⟩
  · cases hpick

/-- Another node that is picked is the owner. -/
theorem Agreed.pick_peer (h : Agreed ring c) (hnode : c.nodes[index]? = some node)
    (hpick : node.membership.pick key = .peer peer) :
    ring.owner? (utf8 key) = some peer ∧ node.id ≠ peer := by
  rw [← h.owner?_eq hnode]
  exact owner?_of_pick hpick

/-- A node that picks itself is the owner, if there is one. -/
theorem Agreed.pick_here (h : Agreed ring c) (hnode : c.nodes[index]? = some node)
    (hpick : node.membership.pick key = .here) :
    ring.owner? (utf8 key) = some node.id ∨ ring.isEmpty = true := by
  unfold Membership.pick at hpick
  rw [h.owner?_eq hnode] at hpick
  split at hpick
  · next owner howner =>
    split at hpick
    · next hself =>
      subst hself
      exact .inl howner
    · cases hpick
  · next hnone =>
    refine .inr ?_
    cases hplacements : ring.placements with
    | nil => simp [Ring.isEmpty, hplacements]
    | cons first rest => simp [Ring.owner?, Ring.serving?, hplacements] at hnone

/-! ## Hops -/

/-- The owner of the key of a frame is another node than that of the frame. -/
def OwnedElsewhere (ring : Ring) (c : Cluster) (frame : Frame) (peer : String) : Prop :=
  ring.owner? (utf8 frame.key) = some peer ∧ ∃ id, c.Named frame.node id ∧ id ≠ peer

/-- What holds of every cluster whose nodes agree: keys are fetched from their owners by others, and
only one frame is inside of one that fetches, on the owner. -/
structure OneHop (ring : Ring) (c : Cluster) : Prop where
  fetching : ∀ (number : Nat) (frame : Frame) (flight : Nat) (peer : String),
    c.HasFrame number frame → frame.stage = .leading flight (.fetching peer) →
    OwnedElsewhere ring c frame peer
  adjacent : ∀ (number : Nat) (task : Task) (inner outer : Frame) (rest : List Frame),
    c.tasks[number]? = some task → inner :: outer :: rest <:+ task.frames →
    rest = [] ∧ inner.key = outer.key ∧ ∃ flight peer,
      outer.stage = .leading flight (.fetching peer) ∧ c.Named inner.node peer

/-- A frame on the owner of its key picks no other node. -/
theorem Agreed.not_pick (h : Agreed ring c) {frame : Frame} {owner : String}
    (hnode : c.nodes[frame.node]? = some node)
    (howner : ring.owner? (utf8 frame.key) = some owner) (hnamed : c.Named frame.node owner) :
    node.membership.pick frame.key ≠ .peer peer := by
  intro hpick
  obtain ⟨hpeer, hother⟩ := h.pick_peer hnode hpick
  obtain rfl : owner = peer := Option.some.inj (howner.symm.trans hpeer)
  exact hother (hnamed.unique ⟨node, hnode, rfl⟩).symm

/-- A frame inside of another one is on the owner of its key. -/
theorem OneHop.inner_owner (h : OneHop ring c) {task : Task} {inner outer : Frame}
    {rest : List Frame} (htask : c.tasks[number]? = some task)
    (hframes : inner :: outer :: rest <:+ task.frames) :
    ∃ owner, ring.owner? (utf8 inner.key) = some owner ∧ c.Named inner.node owner := by
  obtain ⟨-, hkey, flight, peer, hstage, hnamed⟩ := h.adjacent number task inner outer rest htask
    hframes
  have hmem : outer ∈ task.frames :=
    hframes.subset (List.mem_cons_of_mem _ List.mem_cons_self)
  obtain ⟨howner, -⟩ := h.fetching number outer flight peer ⟨task, htask, hmem⟩ hstage
  exact ⟨peer, hkey ▸ howner, hnamed⟩

/-- Every move keeps keys fetched from their owners, and one hop at most for each get. -/
theorem OneHop.move (h : OneHop ring c) (hagreed : Agreed ring c)
    (move : Move c action following) : OneHop ring following where
  fetching := by
    intro number frame flight peer hframe hstage
    obtain ⟨height, hat⟩ := hframe.exists_frameAt
    rcases move.passage hat with hold | ⟨hasked, -⟩ | ⟨before, stage, hbefore, rfl, hpassage⟩
    · obtain ⟨howner, id, hnamed, hother⟩ :=
        h.fetching number frame flight peer hold.hasFrame hstage
      exact ⟨howner, id, hnamed.move move, hother⟩
    · cases hasked.symm.trans hstage
    · obtain ⟨node, hnode, hpick⟩ := hpassage.fetching hstage
      obtain ⟨howner, hother⟩ := hagreed.pick_peer hnode hpick
      have hnamed : c.Named before.node node.id := ⟨node, hnode, rfl⟩
      exact ⟨howner, node.id, hnamed.move move, hother⟩
  adjacent := by
    intro number task inner outer rest htask hframes
    cases move.adjoins htask hframes with
    | kept before first _ stage hbefore hwithin =>
        obtain ⟨hrest, hkey, flight, peer, hstage, hnamed⟩ :=
          h.adjacent number before first outer rest hbefore hwithin
        exact ⟨hrest, hkey, flight, peer, hstage, hnamed.move move⟩
    | forwarded frame group served flight home peer sharesToken node target hmisses hpick hroute =>
        refine ⟨?_, rfl, flight, peer, rfl, (route_ok hroute).1.move move⟩
        obtain ⟨before, hbefore, hold⟩ := hmisses.task
        cases rest with
        | nil => rfl
        | cons first others =>
            -- a frame that is inside of another one already would be on the owner
            have hwithin : frame :: first :: others <:+ before.frames := hold ▸ List.suffix_rfl
            obtain ⟨owner, howner, hnamed⟩ := h.inner_owner hbefore hwithin
            exact absurd hpick (hagreed.not_pick hmisses.home howner hnamed)

/-- Where no get is under way, none is on its way to another node. -/
theorem oneHop_of_idle (hidle : ∀ (number : Nat) (task : Task), c.tasks[number]? = some task →
    task.frames = []) : OneHop ring c where
  fetching := by
    rintro number frame flight peer ⟨task, htask, hmem⟩
    rw [hidle number task htask] at hmem
    cases hmem
  adjacent := by
    intro number task inner outer rest htask hframes
    rw [hidle number task htask] at hframes
    cases List.suffix_nil.1 hframes

/-- A run on which the nodes agree goes over one hop at most. -/
theorem Runs.oneHop {start : Cluster} (h : OneHop ring start)
    (run : Runs (fun c _ ↦ Agreed ring c) start c) : OneHop ring c := by
  induction run with
  | here => exact h
  | next _ hagreed hact ih => exact ih.move hagreed (act?_move hact)

/-- The loader of a node is called for a key after a fetch of its own from the owner of the key came
to a fault, as its group falls back on a fault other than an absence or a cancellation. -/
def FallsBack (ring : Ring) (c : Cluster) (action : Action) (id name key : String) : Prop :=
  ∃ number frame group owner fault, c.FetchFails action number frame owner fault ∧
    c.Named frame.node id ∧ frame.key = key ∧ c.groups[frame.group]? = some group ∧
    group.name = name ∧ group.settings.fallbackToLocal = true ∧
    ring.owner? (utf8 key) = some owner ∧ fault.isNotFound = false ∧ fault ≠ .cancelled

/-- A frame whose fetch comes to a fault fetches from the owner of its key. -/
theorem OneHop.owner_of_fails (h : OneHop ring c) (hagreed : Agreed ring c) {frame : Frame}
    {fault : Fault} (hfails : c.FetchFails action number frame peer fault) :
    OwnedElsewhere ring c frame peer := by
  cases hfails with
  | refused _ _ outer group node _ _ hmisses hpick =>
      obtain ⟨howner, hother⟩ := hagreed.pick_peer hmisses.home hpick
      exact ⟨howner, node.id, ⟨node, hmisses.home, rfl⟩, hother⟩
  | handed _ task inner _ outer flight _ _ htask hframes _ hstage =>
      refine h.fetching number frame flight peer ⟨task, htask, ?_⟩ hstage
      exact hframes ▸ List.mem_cons_of_mem _ List.mem_cons_self
  | answered _ task _ outer flight _ _ htask hframes hstage =>
      exact h.fetching number frame flight peer ⟨task, htask, hframes ▸ List.mem_cons_self⟩ hstage
  | brokeOff _ depth reason task _ flight _ htask hframe hstage =>
      exact h.fetching number frame flight peer ⟨task, htask, List.mem_of_getElem? hframe⟩ hstage

/-- Take a run that begins with no get under way, on which at all times every node has the content
of one ring and a transport. Each fetch that is recorded next goes from a node that is not the owner
of the key to the owner. Each call of a loader is one at the owner, as every node is where the ring
has no members, or follows a fetch of the same node that came to a fault from which its group falls
back. And a task is at one node, or at two: then the outer frame fetches its key from the owner,
which its node is not, and the inner frame is at the owner and fetches from nowhere. -/
theorem one_hop {start : Cluster}
    (hidle : ∀ (number : Nat) (task : Task), start.tasks[number]? = some task → task.frames = [])
    (run : Runs (fun c _ ↦ Agreed ring c) start c) (hagreed : Agreed ring c)
    (hact : c.act? action = some following) :
    (∃ fresh, following.events.toList = c.events.toList ++ fresh ∧
      (∀ id peer name key, .fetch id peer name key ∈ fresh →
        ring.owner? (utf8 key) = some peer ∧ id ≠ peer) ∧
      ∀ id name key, .load id name key ∈ fresh → ring.owner? (utf8 key) = some id ∨
        ring.isEmpty = true ∨ FallsBack ring c action id name key) ∧
    ∀ (number : Nat) (task : Task), c.tasks[number]? = some task → task.frames.length ≤ 2 ∧
      ∀ inner outer rest, task.frames = inner :: outer :: rest →
        (∃ flight owner, outer.stage = .leading flight (.fetching owner) ∧
          ring.owner? (utf8 outer.key) = some owner ∧ ¬c.Named outer.node owner ∧
          inner.key = outer.key ∧ c.Named inner.node owner) ∧
        ∀ flight peer, inner.stage ≠ .leading flight (.fetching peer) := by
  have h := run.oneHop (oneHop_of_idle hidle)
  constructor
  · obtain ⟨-, fresh, hfresh, haccounts⟩ := act?_accounts hact
    refine ⟨fresh, hfresh, ?_, ?_⟩
    · intro id peer name key hmem
      cases haccounts _ hmem rfl with
      | fetches number frame outer group node _ hmisses hpick =>
          exact hagreed.pick_peer hmisses.home hpick
    · intro id name key hmem
      generalize hevent : Event.load id name key = event at hmem
      cases haccounts event hmem (hevent ▸ rfl) with
      | fetches => cases hevent
      | loads number frame outer group node hmisses hhere =>
          cases hevent
          have hpick := hhere.resolve_right (hagreed _ node hmisses.home).1
          exact (hagreed.pick_here hmisses.home hpick).imp_right .inl
      | fallsBack _ number frame group peer fault hfails hgroup hfallback hfound hcancelled =>
          cases hevent
          obtain ⟨howner, id, hnamed, -⟩ := h.owner_of_fails hagreed hfails
          rw [hnamed.idOf]
          exact .inr (.inr ⟨number, frame, group, peer, fault, hfails, hnamed, rfl, hgroup, rfl,
            hfallback, howner, hfound, hcancelled⟩)
  · intro number task htask
    constructor
    · rcases hframes : task.frames with _ | ⟨inner, _ | ⟨outer, rest⟩⟩
      · simp
      · simp
      · obtain ⟨rfl, -⟩ := h.adjacent number task inner outer rest htask (hframes ▸ List.suffix_rfl)
        simp
    · intro inner outer rest hframes
      have hsuffix : inner :: outer :: rest <:+ task.frames := hframes ▸ List.suffix_rfl
      obtain ⟨-, hkey, flight, owner, hstage, hnamed⟩ :=
        h.adjacent number task inner outer rest htask hsuffix
      have houter : c.HasFrame number outer :=
        ⟨task, htask, hsuffix.subset (List.mem_cons_of_mem _ List.mem_cons_self)⟩
      obtain ⟨howner, id, hid, hother⟩ := h.fetching number outer flight owner houter hstage
      refine ⟨⟨flight, owner, hstage, howner, fun hself ↦ hother (hid.unique hself), hkey, hnamed⟩,
        ?_⟩
      intro flight' peer hfetches
      obtain ⟨hpeer, id', hid', hother'⟩ := h.fetching number inner flight' peer
        ⟨task, htask, hsuffix.subset List.mem_cons_self⟩ hfetches
      rw [hkey, howner] at hpeer
      cases hpeer
      exact hother' (hid'.unique hnamed)

/-- Nodes that agree go on to do so while they are not changed. -/
theorem Runs.agreedAll {start last : Cluster} (run : Runs (fun c _ ↦ Agreed ring c) start c)
    (hagreed : Agreed ring c) {actions : List Action}
    (hkeeps : ∀ action ∈ actions, action.rewires = false)
    (hact : c.actAll? actions = some last) :
    Runs (fun c _ ↦ Agreed ring c) start last ∧ Agreed ring last := by
  induction actions generalizing c with
  | nil =>
      cases hact
      exact ⟨run, hagreed⟩
  | cons action rest ih =>
      obtain ⟨next, hnext, hrest⟩ := Option.bind_eq_some_iff.1 hact
      have hnodes := (act?_move hnext).nodes_eq (hkeeps action List.mem_cons_self)
      refine ih (run.next hagreed hnext) ?_ ?_ hrest
      · unfold Agreed
        rw [hnodes]
        exact hagreed
      · exact fun other hother ↦ hkeeps other (List.mem_cons_of_mem _ hother)

/-- A ring with two members, of which the second one owns every key. -/
def twoMembers : Ring :=
  (Ring.empty 1 fun _ ↦ 0).insertMany ["a", "b"]

/-- Two nodes that agree on the ring, with a group each. -/
def agreeing : Cluster :=
  (empty.actAll?
    [.join (.alone "a" 1 fun _ ↦ 0) (.network true) "/" 1000,
      .join (.alone "b" 1 fun _ ↦ 0) (.network true) "/" 1000, .create 0 "g" .default,
      .create 1 "g" .default, .changePeers 0 (.set ["a", "b"]),
      .changePeers 1 (.set ["a", "b"])]).get (by decide +kernel)

theorem agreed_agreeing : Agreed twoMembers agreeing := by
  intro index node hnode
  match index with
  | 0 | 1 =>
      cases hnode
      exact ⟨by decide, rfl, rfl⟩
  | _ + 2 => cases hnode

/-- What a get on the node that is not the owner does before the loader of the owner is called. -/
def hop : List Action :=
  .get 0 0 "k" true false none :: List.replicate 5 (.step 0)

/-- The get has been forwarded to the owner, and leads there. -/
def hopping : Cluster :=
  (agreeing.actAll? hop).get (by decide +kernel)

/-- A get on the node that is not the owner is forwarded to the owner, whose loader is called. -/
theorem one_hop_agreeing : ∃ following task,
    (∀ (number : Nat) (task : Task), agreeing.tasks[number]? = some task → task.frames = []) ∧
    Runs (fun c _ ↦ Agreed twoMembers c) agreeing hopping ∧ Agreed twoMembers hopping ∧
    hopping.act? (.step 0) = some following ∧
    hopping.events.toList = [.fetch "a" "b" "g" "k"] ∧
    following.events.toList = hopping.events.toList ++ [.load "b" "g" "k"] ∧
    hopping.tasks[0]? = some task ∧ task.frames.length = 2 ∧
    (twoMembers.owner? (utf8 "k") = some "b" ∨ twoMembers.isEmpty = true ∨
      FallsBack twoMembers hopping (.step 0) "b" "g" "k") := by
  have hidle : ∀ (number : Nat) (task : Task), agreeing.tasks[number]? = some task →
      task.frames = [] := fun number task htask ↦ nomatch htask
  have hhop : agreeing.actAll? hop = some hopping := (Option.some_get _).symm
  obtain ⟨hrun, hagreed⟩ := Runs.here.agreedAll agreed_agreeing (by decide) hhop
  have hact : hopping.act? (.step 0) =
      some ((hopping.act? (.step 0)).get (by decide +kernel)) := (Option.some_get _).symm
  obtain ⟨⟨fresh, hfresh, -, hloads⟩, -⟩ := one_hop hidle hrun hagreed hact
  have hload : ((hopping.act? (.step 0)).get (by decide +kernel)).events.toList =
      hopping.events.toList ++ [.load "b" "g" "k"] := by decide +kernel
  obtain rfl := List.append_cancel_left (hload.symm.trans hfresh)
  have htwo : (hopping.tasks[0]?).map (·.frames.length) = some 2 := by decide +kernel
  obtain ⟨task, htask, hlength⟩ := Option.map_eq_some_iff.1 htwo
  exact ⟨_, task, hidle, hrun, hagreed, hact, by decide +kernel, hload, htask, hlength,
    hloads "b" "g" "k" List.mem_cons_self⟩

end Cluster

end ReadThrough
