import ReadThrough.Proofs.Cluster.Contents
import ReadThrough.Proofs.Cluster.Registry
import ReadThrough.Proofs.Cluster.Waits

/-!
# How far a get is forwarded

Nothing in the code of a get counts how often it was forwarded. What bounds it is that every frame
outside of the innermost one leads a flight for the key, that a group has one leader for a key, and
that a node has one group of a name: so the frames that lead are on different nodes
(`nodup_leaderNodes`). The rest of the work of a get then becomes less with everything that it does
(`Forwarded.remaining_lt`), whatever the peer lists are by then. The main statement is
`forwarding_bounded`.
-/

namespace ReadThrough

/-- What a get does by itself, and what the loader and the transport answer to its calls. -/
def Cluster.Action.Own (number : Nat) : Cluster.Action → Prop
  | .step task | .answerLoad task _ | .answerFetch task _ => task = number
  | _ => False

/-- How much a frame has to do at most until it has handed its outcome on, where the key can be
forwarded a number of times still. -/
def Frame.work (frame : Frame) (group : Option Group) (spare : Nat) : Nat :=
  match frame.stage with
  | .asked => 7 * spare + 7
  | .missed => 7 * spare + 6
  | .waiting flight =>
      if (group.map fun g ↦ g.flights.status flight) = some .lost then 7 * spare + 6 else 2
  | .leading _ .recheck => 7 * spare + 5
  | .leading _ (.fetching _) => 4
  | .leading _ .loading => 3
  | .leading _ (.done _) => 2
  | .answered _ => 1

namespace Cluster

variable {c following : Cluster} {action : Action} {number : Nat}
  {keys : Nat → Nat → String} {goals : Nat → String × String}

/-! ## Groups that stay on their nodes -/

/-- Groups stay registered where they are made, and gets begin on registered groups. -/
def Lasting (c : Cluster) : Action → Prop
  | .get node index _ _ _ _ =>
      (c.groups[index]?).any (fun group ↦ c.group? node group.name = some index) = true
  | .removeGroup _ _ => False
  | _ => True

instance (c : Cluster) (action : Action) : Decidable (Lasting c action) :=
  match action with
  | .get _ _ _ _ _ _ => instDecidableEqBool _ true
  | .removeGroup _ _ => isFalse not_false
  | .join _ _ _ _ | .create _ _ _ | .changePeers _ _ | .connect _ _ | .serve _ _ _ | .step _
  | .heed _ _ | .answerLoad _ _ | .answerFetch _ _ | .breakOff _ _ _ | .expire _ | .drop _
  | .cancel _ | .remove _ _ | .clear _ | .advance _ => isTrue trivial

/-- A group stays registered on a node that changes if the change leaves its name alone. -/
theorem group?_modifyNode {node other index : Nat} {name : String} {change : Node → Node}
    (h : c.group? node name = some index)
    (hchange : ∀ n, c.nodes[node]? = some n → other = node →
      (change n).registry.lookup name = n.registry.lookup name) :
    (c.modifyNode other change).group? node name = some index := by
  obtain ⟨found, hfound, hlookup⟩ := Option.bind_eq_some_iff.1 h
  refine Option.bind_eq_some_iff.2 ?_
  rw [modifyNode, Array.getElem?_modify, hfound]
  by_cases heq : other = node
  · exact ⟨change found, if_pos heq, (hchange found hfound heq).trans hlookup⟩
  · exact ⟨found, if_neg heq, hlookup⟩

/-- A registered group is registered after every action that leaves groups where they are. -/
theorem group?_act {node index : Nat} {name : String} (h : c.group? node name = some index)
    (hlasting : Lasting c action) (hact : c.act? action = some following) :
    following.group? node name = some index := by
  by_cases hkeeps : action.rewires = false
  · rw [group?, (act?_move hact).nodes_eq hkeeps]
    exact h
  cases action with
  | join membership carrier basePath requestTimeout =>
      cases hact
      obtain ⟨found, hfound, hlookup⟩ := Option.bind_eq_some_iff.1 h
      refine Option.bind_eq_some_iff.2 ⟨found, ?_, hlookup⟩
      rw [addNode, Array.getElem?_push,
        if_neg (Nat.ne_of_lt (Array.getElem?_eq_some_iff.1 hfound).1), hfound]
  | create other new settings =>
      simp only [act?, Option.some.injEq, getOrCreate] at hact
      subst hact
      split
      · exact h
      · next hnone =>
        refine group?_modifyNode (c := { c with groups := c.groups.push _ }) h ?_
        rintro n hn rfl
        refine lookup_register_of_ne _ ?_
        rintro rfl
        cases h.symm.trans hnone
  | removeGroup => exact hlasting.elim
  | changePeers | connect =>
      cases hact
      exact group?_modifyNode h fun _ _ _ ↦ rfl
  | _ => exact absurd rfl hkeeps

/-! ## Chains of frames -/

/-- What holds of all gets of a cluster whose groups last: their frames are on groups that are
registered on their nodes, and all but the innermost frame fetch. -/
structure Forwarded (c : Cluster) : Prop where
  registered : ∀ (number : Nat) (frame : Frame), c.HasFrame number frame →
    ∃ name, c.group? frame.node name = some frame.group
  fetching : ∀ (number : Nat) (task : Task) (inner outer : Frame) (rest : List Frame),
    c.tasks[number]? = some task → inner :: outer :: rest <:+ task.frames →
    ∃ flight peer, outer.stage = .leading flight (.fetching peer)

theorem forwarded_empty : Forwarded empty :=
  ⟨by simp [HasFrame, empty], by simp [empty]⟩

/-- Every action keeps gets forwarded so. -/
theorem Forwarded.act (h : Forwarded c) (hlasting : Lasting c action)
    (hact : c.act? action = some following) : Forwarded following := by
  have move := act?_move hact
  refine ⟨?_, ?_⟩
  · rintro number frame ⟨task, htask, hmem⟩
    have hstays {place index : Nat} (hthere : ∃ name, c.group? place name = some index) :
        ∃ name, following.group? place name = some index :=
      hthere.imp fun _ hname ↦ group?_act hname hlasting hact
    rcases move.restacks htask with
      ⟨before, hbefore, hrestacked⟩ | ⟨-, hnone | ⟨first, hone, hbegins⟩⟩
    · have hold (found : Frame) (hfound : found ∈ before.frames) :
          ∃ name, following.group? found.node name = some found.group :=
        hstays (h.registered number found ⟨before, hbefore, hfound⟩)
      generalize task.frames = frames at hmem hrestacked
      cases hrestacked with
      | left _ hleft => exact hold frame (hleft.subset hmem)
      | restaged moved outer stage hwithin hpassage =>
          rcases List.mem_cons.1 hmem with rfl | hmem
          · exact hold moved (hwithin.subset List.mem_cons_self)
          · exact hold frame (hwithin.subset (List.mem_cons_of_mem _ hmem))
      | forwarded moved outer group served flight home peer sharesToken node target hframes hmisses
          hstage hpick hcarrier hroute =>
          rcases List.mem_cons.1 hmem with rfl | hmem
          · exact hstays ⟨group.name, (route_ok hroute).2⟩
          · rcases List.mem_cons.1 hmem with rfl | hmem
            · exact hold moved (hframes ▸ List.mem_cons_self)
            · exact hold frame (hframes ▸ List.mem_cons_of_mem _ hmem)
    · rw [hnone] at hmem
      cases hmem
    · rw [hone] at hmem
      obtain rfl := List.mem_singleton.1 hmem
      cases hbegins with
      | asked =>
          obtain ⟨group, -, hname⟩ := (Option.any_eq_true _ _).1 hlasting
          exact hstays ⟨group.name, of_decide_eq_true hname⟩
      | requested _ _ _ name _ _ _ _ hindex => exact hstays ⟨name, hindex⟩
  · intro number task inner outer rest htask hframes
    cases move.adjoins htask hframes with
    | kept before first _ stage hbefore hwithin =>
        exact h.fetching number before first outer rest hbefore hwithin
    | forwarded frame group served flight node peer => exact ⟨flight, peer, rfl⟩

/-- Every run on which groups last keeps gets forwarded so. -/
theorem Runs.forwarded (run : Runs Lasting empty c) : Forwarded c := by
  induction run with
  | here => exact forwarded_empty
  | next _ hlasting hact ih => exact ih.act hlasting hact

/-- All but the innermost frame of a get fetch. -/
theorem Forwarded.fetching_tail (h : Forwarded c) {task : Task} {frame : Frame}
    (htask : c.tasks[number]? = some task) (hmem : frame ∈ task.frames.tail) :
    ∃ flight peer, frame.stage = .leading flight (.fetching peer) := by
  obtain ⟨first, rest, hframes⟩ := List.exists_cons_of_ne_nil (List.ne_nil_of_mem
    (List.mem_of_mem_tail hmem))
  rw [hframes, List.tail_cons] at hmem
  obtain ⟨before, after, rfl⟩ := List.append_of_mem hmem
  -- the frame just inside of it
  have hinner := List.dropLast_append_getLast (List.cons_ne_nil first before)
  refine h.fetching number task ((first :: before).getLast (List.cons_ne_nil _ _)) frame after htask
    ⟨(first :: before).dropLast, ?_⟩
  calc (first :: before).dropLast ++ (first :: before).getLast _ :: frame :: after
      = ((first :: before).dropLast ++ [(first :: before).getLast _]) ++ frame :: after := by simp
    _ = task.frames := by rw [hinner, hframes, List.cons_append]

/-- The node of a frame is there. -/
theorem Forwarded.node_lt (h : Forwarded c) {frame : Frame} (hframe : c.HasFrame number frame) :
    frame.node < c.nodes.size := by
  obtain ⟨name, hname⟩ := h.registered number frame hframe
  obtain ⟨node, hnode, -⟩ := Option.bind_eq_some_iff.1 hname
  exact (Array.getElem?_eq_some_iff.1 hnode).1

/-- A registered group is there under its name. -/
theorem Sound.of_group? {P : Verdict} (h : Sound P keys goals c) {node index : Nat} {name : String}
    (hindex : c.group? node name = some index) :
    ∃ group, c.groups[index]? = some group ∧ group.name = name := by
  obtain ⟨found, hfound, hlookup⟩ := Option.bind_eq_some_iff.1 hindex
  exact h.registry node found name index hfound (mem_of_lookup hlookup)

/-- Frames of one get that are on one node are on one group. -/
theorem Forwarded.group_eq (h : Forwarded c) (hsound : Sound anyOutcome keys goals c) {task : Task}
    {frame other : Frame} (htask : c.tasks[number]? = some task) (hframe : frame ∈ task.frames)
    (hother : other ∈ task.frames) (hnode : frame.node = other.node) :
    frame.group = other.group := by
  have hregistered {found : Frame} (hfound : found ∈ task.frames) :
      c.group? found.node (goals number).1 = some found.group := by
    obtain ⟨name, hname⟩ := h.registered number found ⟨task, htask, hfound⟩
    obtain ⟨group, hgroup, rfl⟩ := hsound.of_group? hname
    rw [← (hsound.fits htask hfound hgroup).1]
    exact hname
  have hsame := hregistered hframe
  rw [hnode, hregistered hother] at hsame
  exact (Option.some.inj hsame).symm

/-! ## Leaders -/

/-- The nodes on which a get leads a flight. -/
def leaderNodes (frames : List Frame) : List Nat :=
  (frames.filter fun frame ↦ frame.lead?.isSome).map Frame.node

theorem lead?_eq {frame : Frame} {led : Nat × String} (h : frame.lead? = some led) :
    led = (frame.group, frame.key) := by
  unfold Frame.lead? at h
  split at h
  · exact (Option.some.inj h).symm
  · cases h

/-- A get leads a flight on any node at most once. -/
theorem Forwarded.nodup_leaderNodes (h : Forwarded c) (hsound : Sound anyOutcome keys goals c)
    (hled : Led c) {task : Task} (htask : c.tasks[number]? = some task) :
    (leaderNodes task.frames).Nodup := by
  have hpairwise := List.pairwise_filterMap.1 (hled.within number task htask)
  refine List.pairwise_map.2 (List.pairwise_filter.2 (hpairwise.imp_of_mem ?_))
  intro frame other hframe hother hapart hleads hleads' hnode
  obtain ⟨led, hled⟩ := Option.isSome_iff_exists.1 hleads
  obtain ⟨led', hled'⟩ := Option.isSome_iff_exists.1 hleads'
  refine hapart led hled led' hled' ?_
  obtain ⟨group, hgroup, -, hkey, -⟩ := hsound.frames number task htask frame hframe
  obtain ⟨group', hgroup', -, hkey', -⟩ := hsound.frames number task htask other hother
  rw [lead?_eq hled, lead?_eq hled', h.group_eq hsound htask hframe hother hnode, hkey, hkey']

/-- A get leads no more flights than there are nodes. -/
theorem Forwarded.length_leaderNodes_le (h : Forwarded c) (hsound : Sound anyOutcome keys goals c)
    (hled : Led c) {task : Task} (htask : c.tasks[number]? = some task) :
    (leaderNodes task.frames).length ≤ c.nodes.size := by
  have hsubset : leaderNodes task.frames ⊆ List.range c.nodes.size := by
    intro node hmem
    obtain ⟨frame, hframe, rfl⟩ := List.mem_map.1 hmem
    exact List.mem_range.2 (h.node_lt ⟨task, htask, (List.mem_filter.1 hframe).1⟩)
  have hlength := ((h.nodup_leaderNodes hsound hled htask).subperm hsubset).length_le
  rwa [List.length_range] at hlength

/-- Frames outside of the innermost one all lead. -/
theorem Forwarded.length_tail_le (h : Forwarded c) {task : Task}
    (htask : c.tasks[number]? = some task) :
    task.frames.tail.length ≤ (leaderNodes task.frames).length := by
  have hall : ∀ frame ∈ task.frames.tail, frame.lead?.isSome = true := by
    intro frame hmem
    obtain ⟨flight, peer, hstage⟩ := h.fetching_tail htask hmem
    rw [Frame.lead?_leading hstage]
    rfl
  rw [leaderNodes, List.length_map]
  calc task.frames.tail.length
      = (task.frames.tail.filter fun frame ↦ frame.lead?.isSome).length := by
        rw [List.filter_eq_self.2 hall]
    _ ≤ _ := ((List.tail_sublist _).filter _).length_le

/-! ## The work that is left -/

/-- How much frames have to do at most until their get has its outcome. -/
def remaining (c : Cluster) : List Frame → Nat
  | [] => 0
  | frame :: outer =>
      frame.work c.groups[frame.group]? (c.nodes.size - outer.length) + 4 * outer.length

theorem takeFetched_work (group : Group) (key : String) (now : Millis) (answer : Outcome)
    (frame : Frame) (flight : Nat) (after : Option Group) (spare : Nat) :
    ({ frame with
        stage := .leading flight (group.takeFetched key now answer).1.errand } : Frame).work after
      spare ≤ 3 := by
  cases (group.takeFetched key now answer).1 <;> simp [Frame.work, Group.Fetched.errand]

/-- A turn leaves a frame less to do. -/
theorem Turn.work_lt {task : Task} {frame : Frame} {group after : Group} {stage : FrameStage}
    (turn : Turn c number task frame group action stage after)
    (hrecorded : ∀ key flight, (key, flight) ∈ group.flights.records →
      group.flights.flights[flight]? = some .aloft) (spare : Nat) :
    ({ frame with stage } : Frame).work (some after) spare < frame.work (some group) spare := by
  have hcontends (h : Contends frame group) : frame.work (some group) spare = 7 * spare + 6 := by
    rcases h with hstage | ⟨flight, hstage, hlost⟩
    · simp [Frame.work, hstage]
    · simp [Frame.work, hstage, hlost]
  cases turn with
  | joined flight hcontend hmem =>
      have haloft : FlightTable.status
          { group.flights with waits := group.flights.waits + 1 } flight = .aloft :=
        FlightTable.status_eq_aloft.2 (hrecorded frame.key flight hmem)
      rw [hcontends hcontend]
      simp [Frame.work, haloft]
  | led hcontend =>
      rw [hcontends hcontend]
      simp [Frame.work]
  | took flight outcome hstage hlanded =>
      have hstatus := FlightTable.status_eq_landed.2 hlanded
      simp [Frame.work, hstage, hstatus]
  | refused flight node peer sharesToken fault hstage =>
      refine Nat.lt_of_le_of_lt (takeFetched_work group frame.key c.now _ frame flight _ spare) ?_
      simp [Frame.work, hstage]
  | fetched flight peer answer hstage =>
      refine Nat.lt_of_le_of_lt (takeFetched_work group frame.key c.now _ frame flight _ spare) ?_
      simp [Frame.work, hstage]
  | answered _ _ hstage | missed _ hstage | found _ _ _ hstage | loads _ _ hstage
  | fetches _ _ _ hstage | landed _ _ hstage | loaded _ _ hstage =>
      simp [Frame.work, hstage]

/-- A leader that looks at the tiers does something, where its node is there and the groups that its
key can be forwarded to. -/
theorem dispatch_reframes {frame : Frame} {outer : List Frame} {group : Group} {flight : Nat}
    {node : Node} (hstage : frame.stage = .leading flight .recheck)
    (hnode : c.nodes[frame.node]? = some node)
    (hroute : ∀ peer place target, c.route peer group.name = .ok (place, target) →
      ∃ served, c.groups[target]? = some served) :
    ∃ frames, c.Reframes number (c.dispatch number frame outer group flight) frames ∧
      frames ≠ frame :: outer := by
  have hrestaged {stage : FrameStage} (hne : stage ≠ .leading flight .recheck) :
      { frame with stage } :: outer ≠ frame :: outer := by
    intro heq
    exact hne ((congrArg Frame.stage (List.cons.inj heq).1).trans hstage)
  unfold dispatch
  split
  · exact ⟨_, ⟨rfl, rfl, rfl⟩, hrestaged nofun⟩
  · rw [hnode]
    dsimp only
    split
    · next peer sharesToken hpick hcarrier =>
      unfold forward
      split
      · next fault hrefused =>
        obtain ⟨⟨htasks, hnodes, hnow⟩, -⟩ :=
          takeFetched_spec (c.record (.fetch node.id peer group.name frame.key)) number frame outer
            group flight peer (.error fault)
        refine ⟨_, ⟨htasks, hnodes, hnow⟩, hrestaged ?_⟩
        generalize (group.takeFetched _ _ _).1 = taken
        cases taken <;> exact nofun
      · next place target hok =>
        obtain ⟨served, hserved⟩ := hroute peer place target hok
        have hthere : (c.record (.fetch node.id peer group.name frame.key)).groups[target]? =
            some served := hserved
        rw [hthere]
        refine ⟨_, ⟨rfl, rfl, rfl⟩, fun heq ↦ ?_⟩
        exact absurd (congrArg List.length heq) (by simp)
    · exact ⟨_, ⟨rfl, rfl, rfl⟩, hrestaged nofun⟩
    · exact ⟨_, ⟨rfl, rfl, rfl⟩, hrestaged nofun⟩

/-- No get stays as it is in what it does by itself. -/
theorem Forwarded.not_stayed (h : Forwarded c) (hsound : Sound anyOutcome keys goals c)
    (hidles : c.Idles action) (hown : action.Own number) (hact : c.act? action = some following) :
    following.tasks ≠ c.tasks := by
  cases action with
  | step mover =>
      obtain ⟨task, frame, outer, flight, htask, hframes, hstage⟩ := hidles
      obtain ⟨group, hgroup, -⟩ :=
        hsound.frames mover task htask frame (hframes ▸ List.mem_cons_self)
      have hlt := h.node_lt ⟨task, htask, hframes ▸ List.mem_cons_self⟩
      have hdispatch : c.dispatch mover frame outer group flight = following := by
        simpa [act?, step?, htask, hframes, hgroup, hstage] using hact
      have hreframed : ∃ frames,
          c.Reframes mover (c.dispatch mover frame outer group flight) frames ∧
            frames ≠ frame :: outer :=
        dispatch_reframes hstage (Array.getElem?_eq_some_iff.2 ⟨hlt, rfl⟩)
          fun peer place target hok ↦ (hsound.of_group? (route_ok hok).2).imp fun _ ↦ And.left
      obtain ⟨frames, hreframes, hne⟩ := hreframed
      rw [hdispatch] at hreframes
      intro hsame
      have hafter := hreframes.getElem? htask
      rw [hsame, htask] at hafter
      exact hne (hframes ▸ (congrArg Task.frames (Option.some.inj hafter)).symm)
  | _ => cases hidles <;> cases hown

/-- What becomes of the innermost frame is what its get does by itself. -/
theorem Turn.own {task : Task} {frame : Frame} {group after : Group} {stage : FrameStage}
    {mover : Nat} (turn : Turn c mover task frame group action stage after)
    (hown : action.Own number) : mover = number := by
  cases turn <;> exact hown

/-- What a get does by itself leaves it less to do. -/
theorem Forwarded.remaining_lt (h : Forwarded c) (hsound : Sound anyOutcome keys goals c)
    (hown : action.Own number) (hact : c.act? action = some following)
    (hlength : ∀ task, following.tasks[number]? = some task →
      task.frames.length ≤ following.nodes.size + 1)
    {task : Task} (htask : c.tasks[number]? = some task) :
    ∃ after, following.tasks[number]? = some after ∧
      following.remaining after.frames < c.remaining task.frames := by
  cases act?_move hact with
  | turned mover found frame outer group _ stage after _ hfound hframes hgroup turn hreframes
      hgroups =>
      obtain rfl := turn.own hown
      obtain rfl := Option.some.inj (htask.symm.trans hfound)
      refine ⟨_, hreframes.getElem? htask, ?_⟩
      have hafter : following.groups[frame.group]? = some after := by
        have hlt := (Array.getElem?_eq_some_iff.1 hgroup).1
        rw [hgroups, Array.getElem?_setIfInBounds_self_of_lt hlt]
      have hless := turn.work_lt (fun key flight hmem ↦
        ((hsound.groups frame.group group hgroup).records key flight hmem).1)
        (c.nodes.size - outer.length)
      simp only [remaining, hframes, hafter, hgroup, hreframes.nodes]
      exact Nat.add_lt_add_right hless _
  | forwarded mover found frame outer group served flight home peer sharesToken node target _
      hfound hframes hgroup hstage hpeek hhome hpick hcarrier hroute hserved hreframes =>
      obtain rfl : mover = number := hown
      obtain rfl := Option.some.inj (htask.symm.trans hfound)
      have hafter := hreframes.getElem? htask
      refine ⟨_, hafter, ?_⟩
      have hspare := hlength _ hafter
      simp only [List.length_cons, hreframes.nodes] at hspare
      simp only [remaining, hframes, hreframes.nodes, List.length_cons, Frame.work, hstage]
      omega
  | handed mover found frame parent outer group outcome flight peer _ hfound hframes hstage hparent
      hgroup hreframes hgroups =>
      obtain rfl : mover = number := hown
      obtain rfl := Option.some.inj (htask.symm.trans hfound)
      refine ⟨_, hreframes.getElem? htask, ?_⟩
      have hwork := takeFetched_work group parent.key c.now outcome parent flight
        following.groups[parent.group]? (following.nodes.size - outer.length)
      have hframe : frame.work c.groups[frame.group]? (c.nodes.size - (outer.length + 1)) = 1 := by
        simp only [Frame.work, hstage]
      simp only [remaining, hframes, List.length_cons, hframe]
      exact Nat.lt_of_le_of_lt (Nat.add_le_add_right hwork _) (by omega)
  | popped mover found frame outer outcome _ hfound hframes hstage hreframes hgroups hne hnone =>
      obtain ⟨parent, rest, rfl⟩ := List.exists_cons_of_ne_nil hne
      obtain ⟨flight, peer, hfetching⟩ := h.fetching mover found frame parent rest hfound
        (hframes ▸ List.suffix_rfl)
      obtain ⟨group, hgroup, -⟩ := hsound.frames mover found hfound parent
        (hframes ▸ List.mem_cons_of_mem _ List.mem_cons_self)
      cases hgroup.symm.trans (hnone parent rest flight peer rfl hfetching)
  | finished mover found frame outcome _ hfound hframes hstage hretasks =>
      obtain rfl : mover = number := hown
      obtain rfl := Option.some.inj (htask.symm.trans hfound)
      refine ⟨_, hretasks.getElem? htask, ?_⟩
      simp [remaining, hframes, Frame.work, hstage]
  | stayed _ _ hgroups htasks hnodes hidles =>
      exact absurd htasks (h.not_stayed hsound hidles hown hact)
  | rewired _ _ _ _ hrewires =>
      cases action <;> first | exact hown.elim | cases hrewires
  | _ => exact hown.elim

/-- A get has no more frames than there are nodes, and one more. -/
theorem Runs.length_frames_le (run : Runs Lasting empty c) {task : Task}
    (htask : c.tasks[number]? = some task) : task.frames.length ≤ c.nodes.size + 1 := by
  obtain ⟨keys, goals, hsound⟩ := run.keyed
  have htail := run.forwarded.length_tail_le htask
  have hleaders := run.forwarded.length_leaderNodes_le hsound run.orderly.led htask
  rw [List.length_tail] at htail
  omega

/-- What is left of a get is bounded by the number of nodes. -/
theorem remaining_le {frames : List Frame} (hlength : frames.length ≤ c.nodes.size + 1) :
    c.remaining frames ≤ 7 * (c.nodes.size + 1) := by
  cases frames with
  | nil => exact Nat.zero_le _
  | cons frame outer =>
      have hwork (spare : Nat) : frame.work c.groups[frame.group]? spare ≤ 7 * spare + 7 := by
        unfold Frame.work
        split
        case h_3 => split <;> omega
        all_goals omega
      have hinnermost := hwork (c.nodes.size - outer.length)
      rw [List.length_cons] at hlength
      rw [remaining]
      omega

/-- What a get does by itself, in a row, is no more than what is left of it. -/
theorem Runs.length_own_le (run : Runs Lasting empty c) {actions : List Action} {last : Cluster}
    (hown : ∀ action ∈ actions, action.Own number) (hacts : c.actAll? actions = some last)
    {task : Task} (htask : c.tasks[number]? = some task) :
    actions.length ≤ c.remaining task.frames := by
  induction actions generalizing c task with
  | nil => exact Nat.zero_le _
  | cons action rest ih =>
      obtain ⟨following, hact, hrest⟩ := Option.bind_eq_some_iff.1 hacts
      obtain ⟨hfirst, hothers⟩ := List.forall_mem_cons.1 hown
      obtain ⟨keys, goals, hsound⟩ := run.keyed
      have hlasting : Lasting c action := by cases action <;> trivial
      have longer := run.next hlasting hact
      obtain ⟨after, hafter, hless⟩ := run.forwarded.remaining_lt hsound hfirst hact
        (fun _ ↦ longer.length_frames_le) htask
      exact Nat.lt_of_le_of_lt (ih longer hothers hrest hafter) hless

/-- Take any nodes whose groups last, with any peer lists and any changes of them, and a transport
that serves a fetch as a get on the named node. At every moment every frame of a get is for one
name and key, all but the innermost one fetch, and the get leads a flight on any node at most once.
So it leads no more flights than there are nodes, and no more fetches of it are nested than that.
What it can do by itself, with whatever its loaders and peers answer, comes to an end. -/
theorem forwarding_bounded (run : Runs Lasting empty c) {task : Task}
    (htask : c.tasks[number]? = some task) :
    (∃ name key, ∀ frame ∈ task.frames,
      frame.key = key ∧ (c.groups[frame.group]?).map Group.name = some name) ∧
    (∀ frame ∈ task.frames.tail, ∃ flight peer, frame.stage = .leading flight (.fetching peer)) ∧
    (leaderNodes task.frames).Nodup ∧ (leaderNodes task.frames).length ≤ c.nodes.size ∧
    task.frames.tail.length ≤ c.nodes.size ∧
    ∀ (actions : List Action) (last : Cluster), (∀ action ∈ actions, action.Own number) →
      c.actAll? actions = some last → actions.length ≤ 7 * (c.nodes.size + 1) := by
  obtain ⟨keys, goals, hsound⟩ := run.keyed
  have hforwarded := run.forwarded
  have hled := run.orderly.led
  refine ⟨⟨(goals number).1, (goals number).2, ?_⟩, fun frame ↦ hforwarded.fetching_tail htask,
    hforwarded.nodup_leaderNodes hsound hled htask,
    hforwarded.length_leaderNodes_le hsound hled htask, ?_, ?_⟩
  · intro frame hframe
    obtain ⟨group, hgroup, hname, hkey, -⟩ := hsound.frames number task htask frame hframe
    exact ⟨hkey, by rw [hgroup, Option.map_some, hname]⟩
  · have hlength := run.length_frames_le htask
    rw [List.length_tail]
    omega
  · intro actions last hown hacts
    exact (run.length_own_le hown hacts htask).trans (remaining_le (run.length_frames_le htask))

/-- Where two nodes each take the other one for the owner of a key, a get is nested in as many
fetches as there are nodes. It leads a flight on each of them, and waits on its own one. -/
theorem forwarding_bounded_entangled : ∃ task, Runs Lasting empty entangled ∧
    entangled.tasks[0]? = some task ∧ leaderNodes task.frames = [1, 0] ∧
    (leaderNodes task.frames).Nodup ∧ entangled.nodes.size = 2 ∧
    task.frames.tail.length = entangled.nodes.size ∧ task.frames.tail.length ≤ 2 := by
  have run : Runs Lasting empty entangled :=
    Runs.here.complying (by decide +kernel) (Option.some_get _).symm
  obtain ⟨task, htask, hframes⟩ := entangled_frames
  have hsize : entangled.nodes.size = 2 := by decide +kernel
  obtain ⟨-, -, hnodup, -, hlength, -⟩ := forwarding_bounded run htask
  exact ⟨task, run, htask, by rw [hframes]; rfl, hnodup, hsize, by rw [hframes, hsize]; rfl,
    hsize ▸ hlength⟩

end Cluster

end ReadThrough
