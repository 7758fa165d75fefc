import ReadThrough.Proofs.Cluster.Registry
import ReadThrough.Proofs.Ring.Contents

/-!
# Groups are independent

The operations of a session on one group name, and the gets that they begin, go on as if there were
no other groups.
-/

namespace ReadThrough

namespace Session

variable {s part : Session} {name other : String}

/-- A session with the operations on one of its names. -/
structure Apart (name : String) (s part : Session) : Prop where
  split : s.sim.Split s.owners name part.sim
  rests : part.sim.Rests

/-- What an operation of a session is on a name: one there with the same reply, or none. -/
def Commutes (name : String) (s part : Session) (operation : Operation) : Prop :=
  match s.within? name operation with
  | some within =>
      (part.perform within).1 = s.renumber name (s.perform operation).1 ∧
        Apart name (s.perform operation).2 (part.perform within).2
  | none => Apart name (s.perform operation).2 part

namespace Apart

variable (h : Apart name s part)
include h

theorem number?_eq : part.number? name = (s.number? name).map (rank name s.instances) :=
  h.split.group?_eq

omit h in
/-- A split simulation that settles leaves sessions apart. -/
theorem settle {sim sim' : Simulation} {owners owners' : List String}
    (h : sim.Split owners name sim') : Apart name ⟨sim.settle, owners⟩ ⟨sim'.settle, owners'⟩ :=
  ⟨h.settle, h.lone.settle_rests⟩

/-- A split simulation that settles leaves a session that is at rest apart. -/
theorem settle_part {sim : Simulation} {owners : List String}
    (hsplit : sim.Split owners name part.sim) : Apart name ⟨sim.settle, owners⟩ part := by
  have hsettled := hsplit.settle
  rw [h.rests.settle] at hsettled
  exact ⟨hsettled, h.rests⟩

theorem create (other : String) (settings : GroupSettings) (source : Source) :
    Commutes name s part (.create other settings source) := by
  by_cases hname : other = name
  · subst hname
    simp only [Commutes, within?, if_true]
    simp only [perform]
    cases hnumber : s.sim.cluster.group? 0 other with
    | some number =>
        have hnumber' := h.split.group?_eq
        rw [hnumber, Option.map_some] at hnumber'
        rw [Simulation.getOrCreate_of_some settings source hnumber,
          Simulation.getOrCreate_of_some settings source hnumber']
        refine ⟨?_, settle h.split⟩
        rw [h.split.getElem?_groups (h.split.whole.instance_of_name hnumber)]
        rfl
    | none =>
        have hnumber' := h.split.group?_eq
        rw [hnumber, Option.map_none] at hnumber'
        rw [Simulation.getOrCreate_of_none settings source hnumber,
          Simulation.getOrCreate_of_none settings source hnumber']
        refine ⟨?_, settle (h.split.made settings source hnumber)⟩
        simp only [renumber, Simulation.settings_made]
        rw [h.split.size_groups]
        rfl
  · simp only [Commutes, within?, if_neg hname]
    simp only [perform]
    cases hnumber : s.sim.cluster.group? 0 other with
    | some number =>
        rw [Simulation.getOrCreate_of_some settings source hnumber]
        exact h.settle_part h.split
    | none =>
        rw [Simulation.getOrCreate_of_none settings source hnumber]
        exact h.settle_part (h.split.made_of_ne settings source hnumber hname)

theorem removeGroup (other : String) : Commutes name s part (.removeGroup other) := by
  by_cases hname : other = name
  · subst hname
    simp only [Commutes, within?, if_true]
    refine ⟨?_, settle h.split.removeGroup⟩
    simp only [perform, renumber, Simulation.askCluster, Cluster.removeGroup]
    exact congrArg Reply.removedGroup h.number?_eq
  · simp only [Commutes, within?, if_neg hname]
    exact h.settle_part (h.split.removeGroup_of_ne hname)

/-- A handle refers to the same group in the slice of its name. -/
theorem find?_eq {handle : Handle} (hname : handle.name? s = some name) :
    part.find? (handle.within s name) =
      (s.find? handle).map fun found ↦ (rank name s.instances found.1, found.2) := by
  have hgroups : ∀ number, s.instances[number]? = some name →
      part.sim.cluster.groups[rank name s.instances number]? = s.sim.cluster.groups[number]? :=
    fun number hinstance ↦ h.split.getElem?_groups hinstance
  cases handle with
  | handed number =>
      simp only [find?, Handle.within, Handle.number?, bind, Option.bind_some,
        hgroups number hname, pure]
      cases s.sim.cluster.groups[number]? <;> rfl
  | named other =>
      obtain rfl : other = name := Option.some.inj hname
      simp only [find?, Handle.within, Handle.number?, bind, h.number?_eq, pure]
      cases hnumber : s.number? other with
      | none => rfl
      | some number =>
          rw [Option.map_some, Option.bind_some, Option.bind_some,
            hgroups number (h.split.whole.instance_of_name hnumber)]
          cases s.sim.cluster.groups[number]? <;> rfl

theorem get (handle : Handle) (key : String) (hearsToken cancelled : Bool)
    (timeout : Option Millis) :
    Commutes name s part (.get handle key hearsToken cancelled timeout) := by
  by_cases hname : handle.name? s = some name
  · simp only [Commutes, within?, if_pos hname]
    simp only [perform, h.find?_eq hname]
    cases hfind : s.find? handle with
    | none => exact ⟨rfl, h⟩
    | some found =>
        obtain ⟨number, group⟩ := found
        obtain ⟨hgroup, hsame⟩ := group_of_find? h.split.whole hfind
        obtain rfl : group.name = name := Option.some.inj (hsame.symm.trans hname)
        have hsplit := h.split.get hgroup key hearsToken cancelled timeout rfl
        exact ⟨congrArg Reply.begun h.split.size_part, settle hsplit⟩
  · simp only [Commutes, within?, if_neg hname]
    simp only [perform]
    cases hfind : s.find? handle with
    | none => exact h
    | some found =>
        obtain ⟨number, group⟩ := found
        obtain ⟨hgroup, hsame⟩ := group_of_find? h.split.whole hfind
        have hne : group.name ≠ name := fun heq ↦ hname (hsame.trans (congrArg some heq))
        exact h.settle_part (h.split.get_of_ne hgroup key hearsToken cancelled timeout hne)

theorem remove (handle : Handle) (key : String) : Commutes name s part (.remove handle key) := by
  by_cases hname : handle.name? s = some name
  · simp only [Commutes, within?, if_pos hname]
    simp only [perform, h.find?_eq hname]
    cases hfind : s.find? handle with
    | none => exact ⟨rfl, h⟩
    | some found =>
        obtain ⟨number, group⟩ := found
        obtain ⟨hgroup, hsame⟩ := group_of_find? h.split.whole hfind
        obtain rfl : group.name = name := Option.some.inj (hsame.symm.trans hname)
        have hgroup' :
            part.sim.cluster.groups[rank group.name s.instances number]? = some group :=
          (h.split.getElem?_groups (Simulation.instance_of_group hgroup)).trans hgroup
        simp only [Option.map_some, Simulation.onGroup, hgroup, hgroup']
        exact ⟨rfl, settle (h.split.remove hgroup rfl key)⟩
  · simp only [Commutes, within?, if_neg hname]
    simp only [perform]
    cases hfind : s.find? handle with
    | none => exact h
    | some found =>
        obtain ⟨number, group⟩ := found
        obtain ⟨hgroup, hsame⟩ := group_of_find? h.split.whole hfind
        have hne : group.name ≠ name := fun heq ↦ hname (hsame.trans (congrArg some heq))
        simp only [Simulation.onGroup, hgroup]
        exact h.settle_part (h.split.remove_of_ne hgroup hne key)

theorem cancel (task : Nat) : Commutes name s part (.cancel task) := by
  by_cases howner : s.owners[task]? = some name
  · simp only [Commutes, within?, if_pos howner]
    exact ⟨rfl, settle (h.split.cancel howner)⟩
  · simp only [Commutes, within?, if_neg howner]
    exact h.settle_part (h.split.cancel_of_ne howner)

theorem drop (task : Nat) : Commutes name s part (.drop task) := by
  by_cases howner : s.owners[task]? = some name
  · simp only [Commutes, within?, if_pos howner]
    obtain ⟨following, hdrop, hlone, -⟩ := h.split.lone.drop (rank name s.owners task)
    refine ⟨rfl, h.split.drop howner, ?_⟩
    show (part.sim.drop (rank name s.owners task)).Rests
    rw [hdrop]
    exact hlone.settle_rests
  · simp only [Commutes, within?, if_neg howner]
    have hsplit := h.split.drop_of_ne howner
    rw [h.rests.settle] at hsplit
    exact ⟨hsplit, h.rests⟩

theorem finish (task : Nat) (answer : LoadAnswer) :
    Commutes name s part (.finish task answer) := by
  by_cases howner : s.owners[task]? = some name
  · simp only [Commutes, within?, if_pos howner]
    have hrel := h.split.answerLoad? howner answer
    simp only [perform]
    cases hanswer : s.sim.answerLoad? task answer with
    | none =>
        rw [hanswer] at hrel
        rw [(eq_none_of_rel hrel).1 rfl]
        exact ⟨rfl, h⟩
    | some following =>
        rw [hanswer] at hrel
        obtain ⟨following', hpart, hsplit⟩ := exists_of_rel hrel
        rw [hpart]
        exact ⟨rfl, settle hsplit⟩
  · simp only [Commutes, within?, if_neg howner]
    simp only [perform]
    cases hanswer : s.sim.answerLoad? task answer with
    | none => exact h
    | some following => exact h.settle_part (h.split.answerLoad?_of_ne howner hanswer)

theorem advance (span : Millis) : Commutes name s part (.advance span) :=
  ⟨rfl, settle (h.split.advance span)⟩

/-- Every operation is one on a name, or none there. -/
theorem perform (operation : Operation) : Commutes name s part operation := by
  cases operation with
  | create other settings source => exact h.create other settings source
  | removeGroup other => exact h.removeGroup other
  | get handle key hearsToken cancelled timeout =>
      exact h.get handle key hearsToken cancelled timeout
  | remove handle key => exact h.remove handle key
  | cancel task => exact h.cancel task
  | drop task => exact h.drop task
  | finish task answer => exact h.finish task answer
  | advance span => exact h.advance span

/-- A script is one on a name, with the same replies there. -/
theorem script (operations : List Operation) :
    part.replies (restrict name s operations) = repliesOn name s operations ∧
      Apart name (s.after operations) (part.after (restrict name s operations)) := by
  induction operations generalizing s part with
  | nil => exact ⟨rfl, h⟩
  | cons operation rest ih =>
      have hperform := h.perform operation
      rw [Commutes] at hperform
      simp only [restrict, repliesOn]
      cases hwithin : s.within? name operation with
      | none =>
          rw [hwithin] at hperform
          exact ih hperform
      | some within =>
          rw [hwithin] at hperform
          obtain ⟨hreply, hafter⟩ := hperform
          obtain ⟨hreplies, hend⟩ := ih hafter
          simp only [Option.toList_some, List.singleton_append, replies, hreply, hreplies,
            Option.isSome_some, if_true, true_and]
          exact hend

end Apart

/-- A node without peers owns every key, or cannot reach who does. -/
theorem pick_of_alone {node : Node} (h : node.Alone) {key peer : String}
    (hpick : node.membership.pick key = .peer peer) : node.carrier = .absent := by
  refine h.resolve_right fun hpeers ↦ ?_
  unfold Membership.pick at hpick
  split at hpick
  · next owner howner =>
    have hself : owner = node.membership.selfId :=
      hpeers owner (Ring.mem_members_of_owner? howner)
    rw [if_pos hself] at hpick
    cases hpick
  · cases hpick

/-- A node without peers fetches nothing from the start. -/
theorem lone_start {node : Node} (h : node.Alone) (peers : Script PeerFault) :
    (start node peers).sim.Lone where
  reached := by
    have hjoin : Cluster.empty.act?
        (.join node.membership node.carrier node.basePath node.requestTimeout) = some _ := rfl
    have hconnect : (Cluster.empty.addNode
        { node with online := true, registry := [] }).act? (.connect 0 node.online) =
          some (start node peers).sim.cluster := rfl
    exact (Cluster.Runs.here.next trivial hjoin).next trivial hconnect
  alone := ⟨{ node with registry := [] }, rfl, fun _ _ ↦ pick_of_alone h⟩
  shut := nofun
  sources := rfl
  gets := fun _ _ htask ↦ by cases Array.getElem?_empty.symm.trans htask
  calls := nofun

theorem apart_start {node : Node} (h : node.Alone) (peers : Script PeerFault) (name : String) :
    Apart name (start node peers) (start node peers) := by
  have hlone := lone_start h peers
  have hnone : ∀ (number : Nat) (task : Task),
      (start node peers).sim.cluster.tasks[number]? ≠ some task := fun number task htask ↦ by
    cases Array.getElem?_empty.symm.trans htask
  refine ⟨⟨hlone, hlone, ?_, rfl, fun number index st hat ↦ ?_, nofun⟩, fun number ↦ ?_⟩
  · simp [start, Simulation.empty, Simulation.addNode, Cluster.empty, Cluster.addNode,
      Simulation.slice, Cluster.slice, Node.slice, Simulation.ungated, ranks, callsOn]
  · exact absurd hat.task (hnone number _)
  · exact Simulation.stepTask?_of_over fun task htask ↦ absurd htask (hnone number task)

/-- Groups are independent. In every session with a node without peers, the operations on a name
alone have the same answers as in the whole session, and leave the gets on it and its group
instances where the whole does: the gets came to the same ends, in the same order, with the same
events, and each instance holds and counts the same. The names on the registry are those that were
created and not removed since, in order and once each, and so are those of the statistics. Until a
name is removed, creating it again answers with the instance and the settings of the first time. -/
theorem groups_independent (node : Node) (peers : Script PeerFault) (halone : node.Alone)
    (operations : List Operation) :
    let begun := start node peers
    let whole := begun.after operations
    (∀ name,
      let part := begun.after (restrict name begun operations)
      begun.replies (restrict name begun operations) = repliesOn name begun operations ∧
      part.outcomes = share name whole.owners whole.outcomes ∧
      part.sim.cluster.finished.toList =
        ranks name whole.owners whole.sim.cluster.finished.toList ∧
      part.sim.cluster.events = whole.sim.cluster.events.filter (·.group = name) ∧
      part.sim.cluster.groups.toList =
        share name whole.instances whole.sim.cluster.groups.toList ∧
      part.group? name = whole.group? name) ∧
    ((whole.sim.cluster.groupNames 0).Pairwise (· < ·) ∧
      (whole.sim.cluster.stats 0).map GroupStats.name = whole.sim.cluster.groupNames 0 ∧
      ∀ name, name ∈ whole.sim.cluster.groupNames 0 ↔ Created name operations) ∧
    ∀ before name settings source rest,
      operations = before ++ .create name settings source :: rest → ¬Created name before →
      .removeGroup name ∉ rest →
      ∃ number,
        ((begun.after before).perform (.create name settings source)).1 =
          .group number false (some settings) ∧
        ∀ later other, (whole.perform (.create name later other)).1 =
          .group number true (some settings) := by
  intro begun whole
  have hlone := lone_start halone peers
  refine ⟨fun name ↦ ?_, ?_, ?_⟩
  · intro part
    obtain ⟨hreplies, hapart⟩ := (apart_start halone peers name).script operations
    have hcluster : part.sim.cluster = whole.sim.cluster.slice whole.owners name :=
      hapart.split.cluster_eq
    refine ⟨hreplies, ?_, ?_, ?_, ?_, ?_⟩
    · rw [outcomes, hcluster, outcomes, share_map]
      simp [Cluster.slice, Task.renumber, Function.comp_def]
    · rw [hcluster]
      rfl
    · rw [hcluster]
      rfl
    · rw [hcluster]
      rfl
    · rw [group?, group?, hapart.number?_eq]
      cases hnumber : whole.number? name with
      | none => rfl
      | some number =>
          exact hapart.split.getElem?_groups (hapart.split.whole.instance_of_name hnumber)
  · obtain ⟨hafter, hsorted, hnames⟩ := after_registers hlone rfl operations
    rw [hafter.names_stats, Cluster.groupNames_eq]
    exact ⟨hsorted, rfl, hnames⟩
  · rintro before name settings source rest rfl hnew hkept
    obtain ⟨hbefore, -, hnames⟩ := after_registers hlone rfl before
    have hnone : (begun.after before).sim.cluster.registry.lookup name = none := by
      rw [Option.eq_none_iff_forall_ne_some]
      intro number hnumber
      exact hnew ((hnames name).1 (List.mem_map_of_mem (mem_of_lookup hnumber)))
    obtain ⟨hreply, hnumber, hsettings⟩ := perform_create_of_none hbefore settings source hnone
    have hcreated := (perform_registers hbefore (.create name settings source)).lone
    obtain ⟨hnumber', hsettings'⟩ := after_registered hcreated hnumber hsettings hkept
    have hwhole : whole = ((begun.after before).perform (.create name settings source)).2.after
        rest := by
      simp [whole, after, List.foldl_append]
    refine ⟨_, hreply, fun later other ↦ ?_⟩
    rw [hwhole, perform_create_of_some later other hnumber', hsettings']

/-- A node that could reach peers, but has none. -/
def loner : Node :=
  ⟨.standalone, .network true, true, "", 0, []⟩

/-- The script of peers that are never asked. -/
def unasked : Script PeerFault :=
  ⟨⟨0, none, .error fun _ _ _ ↦ .cancelled⟩, [], []⟩

/-- A source that never answers by itself. -/
def held : Source :=
  .script ⟨⟨0, some "gate", .error (.failed "")⟩, [], []⟩

/-- A group is removed and made again while gets on it and on another group wait. -/
def turmoil : List Operation :=
  [.get (.named "g") "k" false false none, .get (.named "h") "k" false false none,
    .removeGroup "g", .create "g" .default held, .get (.named "g") "k" false false none,
    .finish 2 (.error .notFound), .get (.handed 0) "l" true true none, .finish 0 (.error .notFound)]

/-- The two groups are made before. -/
def recreation : List Operation :=
  [.create "g" .default held] ++ .create "h" .default held :: turmoil

/-- The gets on both instances of a group that is removed and made again come to their ends in the
order that they have in the whole session, in which a get on another group waits all along. -/
theorem groups_independent_recreated :
    loner.Alone ∧
      ((start loner unasked).after
        (restrict "g" (start loner unasked) recreation)).sim.cluster.finished.toList =
          ranks "g" ["g", "h", "g", "g"] [2, 3, 0] ∧
      Created "g" recreation ∧ ¬Created "h" [.create "g" .default held] ∧
      .removeGroup "h" ∉ turmoil ∧
      ∃ number, ∀ later other,
        (((start loner unasked).after recreation).perform (.create "h" later other)).1 =
          .group number true (some .default) := by
  have halone : loner.Alone := .inr (List.forall_mem_nil _)
  obtain ⟨hparts, ⟨-, -, hnames⟩, hfirst⟩ := groups_independent loner unasked halone recreation
  obtain ⟨-, -, hfinished, -⟩ := hparts "g"
  obtain ⟨-, ⟨-, -, hearlier⟩, -⟩ :=
    groups_independent loner unasked halone [.create "g" .default held]
  have howners : ((start loner unasked).after recreation).owners = ["g", "h", "g", "g"] := by
    decide +kernel
  have hended : ((start loner unasked).after recreation).sim.cluster.finished.toList =
      [2, 3, 0] := by
    decide +kernel
  have hlisted : "g" ∈ ((start loner unasked).after recreation).sim.cluster.groupNames 0 := by
    decide +kernel
  have hnew : ¬Created "h" [.create "g" .default held] := by
    rw [← hearlier "h"]
    decide +kernel
  have hkept : .removeGroup "h" ∉ turmoil := by simp [turmoil]
  obtain ⟨number, -, hagain⟩ := hfirst _ "h" .default held turmoil rfl hnew hkept
  rw [howners, hended] at hfinished
  exact ⟨halone, hfinished, (hnames "g").1 hlisted, hnew, hkept, number, hagain⟩

end Session

end ReadThrough
