import ReadThrough.Proofs.Cluster.Rounds
import ReadThrough.Proofs.Shares

/-!
# The groups of one name

The instances of one group name and the gets on them, with both numbered anew, are a simulation of
their own (`slice`). A transition of a get on that name is the transition of that get there
(`slice_put`), and a transition of another get leaves it as it is (`slice_put_of_ne`).
-/

namespace ReadThrough

/-- A frame with its group numbered anew. -/
def Frame.renumber (number : Nat → Nat) (frame : Frame) : Frame :=
  { frame with group := number frame.group }

/-- A task with its groups numbered anew. -/
def Task.renumber (number : Nat → Nat) (task : Task) : Task :=
  { task with frames := task.frames.map (Frame.renumber number) }

/-- A node with one name on its registry, given the names of the group instances. -/
def Node.slice (name : String) (instances : List String) (node : Node) : Node :=
  { node with
    registry := (node.registry.filter fun entry ↦ entry.1 = name).map fun entry ↦
      (entry.1, rank name instances entry.2) }

/-- What is on the groups of one name in a cluster, given the names that the gets are on. -/
def Cluster.slice (c : Cluster) (owners : List String) (name : String) : Cluster where
  now := c.now
  nodes := c.nodes.map (Node.slice name c.instances)
  groups := (share name c.instances c.groups.toList).toArray
  tasks := ((share name owners c.tasks.toList).map
    (Task.renumber (rank name c.instances))).toArray
  finished := (ranks name owners c.finished.toList).toArray
  events := c.events.filter fun event ↦ event.group = name

/-- The calls of the gets on one name, with the gets numbered anew. -/
def callsOn (owners : List String) (name : String) (calls : List (Nat × Outstanding)) :
    List (Nat × Outstanding) :=
  (calls.filter fun call ↦ owners[call.1]? = some name).map fun call ↦
    (rank name owners call.1, call.2)

/-- What is on the groups of one name in a simulation, but for what stands at gates. -/
def Simulation.slice (s : Simulation) (owners : List String) (name : String) : Simulation where
  cluster := s.cluster.slice owners name
  sources := (share name s.cluster.instances s.sources.toList).toArray
  peers := s.peers
  gates := []
  calls := callsOn owners name s.calls

/-- A deed that is about the groups of a name alone. -/
structure Deed.On (deed : Deed) (name : String) : Prop where
  group : deed.group.name = name
  events : ∀ event ∈ deed.events, event.group = name

theorem Station.Turns.on {st : Station} {now : Millis} {node : String} {deed : Deed}
    (h : st.Turns now node deed) : deed.On st.group.name :=
  ⟨h.own.1, h.own.2.2⟩

theorem apply_renumber (fate : Fate) (number : Nat → Nat) (task : Task) :
    (fate.apply task).renumber number = fate.apply (task.renumber number) := by
  cases fate with
  | onward stage => simp [Fate.apply, Task.renumber, Frame.renumber, Function.comp_def]
  | ended | dropped => rfl

theorem map_modify {A B : Type} (f : A → B) (change : A → A) (after : B → B)
    (h : ∀ item, f (change item) = after (f item)) (items : List A) (number : Nat) :
    (items.modify number change).map f = (items.map f).modify number after := by
  refine List.ext_getElem? fun other ↦ ?_
  simp only [List.getElem?_map, List.getElem?_modify]
  split <;> simp [Function.comp_def, h]

section

variable {owners : List String} {name other : String} {number : Nat}
  (calls : List (Nat × Outstanding))

theorem callsOn_filter (h : owners[number]? = some name) :
    callsOn owners name (calls.filter fun call ↦ call.1 ≠ number) =
      (callsOn owners name calls).filter fun call ↦ call.1 ≠ rank name owners number := by
  rw [callsOn, callsOn, List.filter_map, List.filter_filter, List.filter_filter]
  refine congrArg _ (List.filter_congr fun call _ ↦ ?_)
  by_cases howner : owners[call.1]? = some name
  · simp [howner, rank_inj howner h]
  · simp [howner]

theorem callsOn_filter_of_ne (h : owners[number]? = some other) (hne : other ≠ name) :
    callsOn owners name (calls.filter fun call ↦ call.1 ≠ number) = callsOn owners name calls := by
  rw [callsOn, callsOn, List.filter_filter]
  refine congrArg _ (List.filter_congr fun call _ ↦ ?_)
  by_cases heq : call.1 = number
  · simp [heq, h, hne]
  · simp [heq]

/-- Gets that begin later do not change the numbers of those with calls. -/
theorem callsOn_append {calls : List (Nat × Outstanding)}
    (h : ∀ call ∈ calls, call.1 < owners.length) (new : List String) (name : String) :
    callsOn (owners ++ new) name calls = callsOn owners name calls := by
  have hsame : calls.filter (fun call ↦ (owners ++ new)[call.1]? = some name) =
      calls.filter fun call ↦ owners[call.1]? = some name :=
    List.filter_congr fun call hmem ↦ by rw [List.getElem?_append_left (h call hmem)]
  rw [callsOn, hsame]
  refine List.map_congr_left fun call hmem ↦ ?_
  rw [rank_append (Nat.le_of_lt (h call (List.mem_of_mem_filter hmem)))]

theorem lookup_callsOn (h : owners[number]? = some name) :
    (callsOn owners name calls).lookup (rank name owners number) = calls.lookup number := by
  induction calls with
  | nil => rfl
  | cons call calls ih =>
      obtain ⟨found, outstanding⟩ := call
      rw [callsOn] at ih ⊢
      by_cases heq : found = number
      · subst heq
        simp [h]
      · rw [List.lookup_cons, beq_eq_false_iff_ne.2 (Ne.symm heq), ← ih]
        by_cases howner : owners[found]? = some name
        · have hne : rank name owners number ≠ rank name owners found := fun hsame ↦
            heq ((rank_inj h howner).1 hsame).symm
          simp [howner, List.lookup_cons, beq_eq_false_iff_ne.2 hne]
        · simp [howner]

end

namespace Simulation

variable {s following : Simulation} {owners : List String} {number index : Nat} {st : Station}
  {deed : Deed} {name other : String}

theorem instance_of_group {group : Group} (h : s.cluster.groups[index]? = some group) :
    s.cluster.instances[index]? = some group.name := by
  rw [Cluster.instances, List.getElem?_map, Array.getElem?_toList, h, Option.map_some]

theorem length_instances (c : Cluster) : c.instances.length = c.groups.toList.length :=
  List.length_map _

/-- Every group has a source. -/
theorem Lone.length_instances (h : s.Lone) :
    s.cluster.instances.length = s.sources.toList.length := by
  rw [Simulation.length_instances, Array.length_toList, Array.length_toList, h.sources]

/-- A group that takes the place of one of its name leaves the names as they are. -/
theorem instances_setGroup {c : Cluster} {before group : Group}
    (hgroup : c.groups[index]? = some before)
    (hname : group.name = before.name) : (c.setGroup index group).instances = c.instances := by
  rw [Cluster.instances, Cluster.instances, ← Array.toList_map, ← Array.toList_map]
  refine congrArg Array.toList (Array.map_setIfInBounds.trans (Cluster.setIfInBounds_same ?_))
  rw [Array.getElem?_map, hgroup, Option.map_some, hname]

section

variable (hat : s.At number index st) (howner : owners[number]? = some st.group.name)
  (hdeed : deed.On st.group.name)
include hat howner hdeed

/-- What a get does is done in the slice of its name. -/
theorem slice_put :
    (s.put number index deed).slice owners st.group.name =
      (s.slice owners st.group.name).put (rank st.group.name owners number)
        (rank st.group.name s.cluster.instances index) deed := by
  have hinstances : (s.put number index deed).cluster.instances = s.cluster.instances :=
    instances_setGroup hat.group hdeed.group
  have htasks : (share st.group.name owners (s.put number index deed).cluster.tasks.toList).map
        (Task.renumber (rank st.group.name s.cluster.instances)) =
      ((share st.group.name owners s.cluster.tasks.toList).map
        (Task.renumber (rank st.group.name s.cluster.instances))).modify
          (rank st.group.name owners number) deed.fate.apply := by
    simp only [put, Cluster.put, Array.toList_modify, share_modify howner]
    exact map_modify _ _ _ (apply_renumber deed.fate _) _ _
  have hfinished :
      (ranks st.group.name owners (s.put number index deed).cluster.finished.toList).toArray =
        ((s.slice owners st.group.name).put (rank st.group.name owners number)
          (rank st.group.name s.cluster.instances index) deed).cluster.finished := by
    simp only [put, Cluster.put, slice, Cluster.slice]
    cases deed.fate with
    | ended outcome => simp [ranks_append, ranks_self howner]
    | onward | dropped => rfl
  have hevents :
      (s.put number index deed).cluster.events.filter
          (fun event ↦ event.group = st.group.name) =
        (s.cluster.events.filter fun event ↦ event.group = st.group.name) ++
          deed.events.toArray := by
    have hall :
        deed.events.filter (fun event ↦ decide (event.group = st.group.name)) = deed.events :=
      List.filter_eq_self.2 fun event hmem ↦ decide_eq_true (hdeed.events event hmem)
    simp [put, Cluster.put, Array.filter_append, hall]
  have hcalls : callsOn owners st.group.name (s.put number index deed).calls =
      ((s.slice owners st.group.name).put (rank st.group.name owners number)
        (rank st.group.name s.cluster.instances index) deed).calls := by
    simp only [put, slice]
    cases deed.call with
    | none => exact callsOn_filter s.calls howner
    | some call =>
        rw [← callsOn_filter s.calls howner]
        simp [callsOn, howner]
  -- what is left is the group and its source, which take the places of the ones before
  rw [slice, Cluster.slice, hinstances, htasks, hfinished, hevents, hcalls]
  simp [put, Cluster.put, slice, Cluster.slice, share_set (instance_of_group hat.group)]

/-- What a get does leaves the slices of other names as they are. -/
theorem slice_put_of_ne (hne : st.group.name ≠ name) :
    (s.put number index deed).slice owners name = s.slice owners name := by
  have hinstance : s.cluster.instances[index]? = some st.group.name := instance_of_group hat.group
  have hinstances : (s.put number index deed).cluster.instances = s.cluster.instances :=
    instances_setGroup hat.group hdeed.group
  have hfinished : ranks name owners (s.put number index deed).cluster.finished.toList =
      ranks name owners s.cluster.finished.toList := by
    simp only [put, Cluster.put]
    cases deed.fate with
    | ended outcome => simp [ranks_append, ranks_of_ne howner hne]
    | onward | dropped => rfl
  have hevents : (s.put number index deed).cluster.events.filter (fun event ↦ event.group = name) =
      s.cluster.events.filter fun event ↦ event.group = name := by
    have hnone : deed.events.filter (fun event ↦ decide (event.group = name)) = [] :=
      List.filter_eq_nil_iff.2 fun event hmem ↦ by simpa [hdeed.events event hmem] using hne
    simp [put, Cluster.put, Array.filter_append, hnone]
  have hcalls : callsOn owners name (s.put number index deed).calls =
      callsOn owners name s.calls := by
    rw [← callsOn_filter_of_ne s.calls howner hne]
    simp only [put]
    cases deed.call with
    | none => rfl
    | some call => simp [callsOn, howner, hne]
  rw [slice, Cluster.slice, hinstances, hfinished, hevents, hcalls]
  simp [put, Cluster.put, slice, Cluster.slice, share_set_of_ne hinstance hne,
    share_modify_of_ne howner hne]

omit hdeed in
/-- The station of a get is one in the slice of its name. -/
theorem At.slice :
    (s.slice owners st.group.name).At (rank st.group.name owners number)
      (rank st.group.name s.cluster.instances index) st where
  task := by
    simp only [Simulation.slice, Cluster.slice, List.getElem?_toArray, List.getElem?_map,
      getElem?_share howner, Array.getElem?_toList, hat.task]
    rfl
  group := by
    simp only [Simulation.slice, Cluster.slice, List.getElem?_toArray,
      getElem?_share (instance_of_group hat.group), Array.getElem?_toList, hat.group]
  source := by
    simp only [Simulation.slice, List.getElem?_toArray,
      getElem?_share (instance_of_group hat.group), Array.getElem?_toList, hat.source]
  call := (lookup_callsOn s.calls howner).trans hat.call
  fits := hat.fits

end

theorem slice_congr (h : following.ungated = s.ungated) (owners : List String) (name : String) :
    following.slice owners name = s.slice owners name := by
  simp only [ungated, Simulation.mk.injEq] at h
  obtain ⟨hcluster, hsources, hpeers, -, hcalls⟩ := h
  rw [slice, slice, hcluster, hsources, hpeers, hcalls]

theorem size_slice (h : owners.length = s.cluster.tasks.size) :
    (s.slice owners name).cluster.tasks.size = rank name owners s.cluster.tasks.size := by
  have hlength : owners.length = s.cluster.tasks.toList.length := by simpa using h
  rw [← h, rank_of_le (Nat.le_refl _), ← length_share hlength]
  simp [slice, Cluster.slice]

end Simulation

/-! ## Operations -/

namespace Cluster

variable {c : Cluster} {owners instances : List String} {name other : String} {number : Nat}

theorem filter_register (number : Nat) (registry : List (String × Nat)) (hne : other ≠ name) :
    (register other number registry).filter (fun entry ↦ entry.1 = name) =
      registry.filter fun entry ↦ entry.1 = name := by
  induction registry with
  | nil => simp [register, hne]
  | cons entry registry ih =>
      unfold register
      split
      · simp [hne]
      · simp only [List.filter_cons, ih]

theorem filter_register_self {registry : List (String × Nat)} (number : Nat)
    (h : ∀ entry ∈ registry, entry.1 ≠ name) :
    (register name number registry).filter (fun entry ↦ entry.1 = name) = [(name, number)] := by
  induction registry with
  | nil => simp [register]
  | cons entry registry ih =>
      obtain ⟨hfirst, hrest⟩ := List.forall_mem_cons.1 h
      have hnone : registry.filter (fun entry ↦ entry.1 = name) = [] :=
        List.filter_eq_nil_iff.2 fun entry hmem ↦ by simpa using hrest entry hmem
      unfold register
      split
      · simp only [List.filter_cons, decide_true, if_true, decide_eq_true_eq, if_neg hfirst, hnone]
      · simp only [List.filter_cons, decide_eq_true_eq, if_neg hfirst, ih hrest]

theorem ne_of_lookup {registry : List (String × Nat)} (h : registry.lookup name = none) :
    ∀ entry ∈ registry, entry.1 ≠ name := fun entry hmem heq ↦ by
  simpa [heq] using List.lookup_eq_none_iff.1 h entry hmem

theorem lookup_slice (node : Node) (instances : List String) (name : String) :
    (node.slice name instances).registry.lookup name =
      (node.registry.lookup name).map (rank name instances) := by
  rw [Node.slice]
  dsimp only
  induction node.registry with
  | nil => rfl
  | cons entry registry ih =>
      obtain ⟨found, number⟩ := entry
      by_cases heq : found = name
      · subst heq
        simp
      · have hne : (name == found) = false := beq_eq_false_iff_ne.2 (Ne.symm heq)
        rw [List.filter_cons_of_neg (by simpa using heq), ih, List.lookup_cons, hne]

end Cluster

theorem renumber_append {task : Task} {instances : List String} (new : List String)
    (name : String) (h : ∀ frame ∈ task.frames, frame.group < instances.length) :
    task.renumber (rank name (instances ++ new)) = task.renumber (rank name instances) := by
  have hframes : task.frames.map (Frame.renumber (rank name (instances ++ new))) =
      task.frames.map (Frame.renumber (rank name instances)) :=
    List.map_congr_left fun frame hmem ↦ by
      rw [Frame.renumber, rank_append (Nat.le_of_lt (h frame hmem)), Frame.renumber]
  rw [Task.renumber, hframes, Task.renumber]

namespace Node

variable {node : Node} {name other : String}

/-- The slice of a node on which the name was registered. -/
theorem slice_register (instances : List String) (h : ∀ entry ∈ node.registry, entry.1 ≠ name) :
    ({ node with registry := Cluster.register name instances.length node.registry } : Node).slice
        name (instances ++ [name]) =
      { node.slice name instances with
        registry := Cluster.register name (instances.count name)
          (node.slice name instances).registry } := by
  have hnil : node.registry.filter (fun entry ↦ entry.1 = name) = [] :=
    List.filter_eq_nil_iff.2 fun entry hmem ↦ by simpa using h entry hmem
  have hrank : rank name (instances ++ [name]) instances.length = instances.count name := by
    rw [rank_append (Nat.le_refl _), rank_of_le (Nat.le_refl _)]
  simp only [slice, Cluster.filter_register_self _ h, hnil, List.map_cons, List.map_nil, hrank]
  rfl

/-- The slice of a node on which another name was registered. -/
theorem slice_register_of_ne {instances : List String}
    (h : ∀ entry ∈ node.registry, entry.2 < instances.length) (number : Nat) (hne : other ≠ name) :
    ({ node with registry := Cluster.register other number node.registry } : Node).slice name
        (instances ++ [other]) = node.slice name instances := by
  have hsame : (node.registry.filter fun entry ↦ entry.1 = name).map
        (fun entry ↦ (entry.1, rank name (instances ++ [other]) entry.2)) =
      (node.registry.filter fun entry ↦ entry.1 = name).map
        fun entry ↦ (entry.1, rank name instances entry.2) :=
    List.map_congr_left fun entry hmem ↦ by
      rw [rank_append (Nat.le_of_lt (h entry (List.mem_of_mem_filter hmem)))]
  simp only [slice, Cluster.filter_register _ _ hne, hsame]

end Node

namespace Simulation

variable {s : Simulation} {owners : List String} {number index : Nat} {st : Station}
  {name other : String}

namespace Lone

variable (h : s.Lone)
include h

/-- What is registered under a name is an instance of that name. -/
theorem registered {node : Node} (hnode : s.cluster.nodes[index]? = some node)
    (hmem : (name, number) ∈ node.registry) : s.cluster.instances[number]? = some name := by
  obtain ⟨keys, goals, hsound⟩ := Cluster.Runs.keyed h.reached
  obtain ⟨group, hgroup, hname⟩ := hsound.registry index node name number hnode hmem
  rw [Cluster.instances, List.getElem?_map, Array.getElem?_toList, hgroup, Option.map_some, hname]

theorem frames_lt {task : Task} (htask : task ∈ s.cluster.tasks.toList) :
    ∀ frame ∈ task.frames, frame.group < s.cluster.instances.length := by
  obtain ⟨number, htask⟩ := List.getElem?_of_mem htask
  rw [Array.getElem?_toList] at htask
  rcases h.gets number task htask with hover | ⟨index, st, hat⟩
  · rw [hover.frames]
    exact nofun
  · obtain rfl := Option.some.inj (htask.symm.trans hat.task)
    refine List.forall_mem_singleton.2 ?_
    exact (List.getElem?_eq_some_iff.1 (instance_of_group hat.group)).1

end Lone

/-- A simulation in which a group was made under a name that was not registered. -/
def made (s : Simulation) (name : String) (settings : GroupSettings) (source : Source) :
    Simulation :=
  { s with
    cluster :=
      { s.cluster with
        groups := s.cluster.groups.push (.create name settings)
        nodes := s.cluster.nodes.modify 0 fun node ↦
          { node with
            registry := Cluster.register name s.cluster.groups.size node.registry } }
    sources := s.sources.push source }

theorem getOrCreate_of_some (settings : GroupSettings) (source : Source)
    (h : s.cluster.group? 0 name = some number) :
    s.getOrCreate 0 name settings source = ((number, true), s) := by
  simp [getOrCreate, Cluster.getOrCreate, h]

theorem getOrCreate_of_none (settings : GroupSettings) (source : Source)
    (h : s.cluster.group? 0 name = none) :
    s.getOrCreate 0 name settings source =
      ((s.cluster.groups.size, false), s.made name settings source) := by
  simp [getOrCreate, Cluster.getOrCreate, h, made, Cluster.modifyNode]

theorem instances_made (s : Simulation) (name : String) (settings : GroupSettings)
    (source : Source) :
    (s.made name settings source).cluster.instances = s.cluster.instances ++ [name] := by
  simp [Cluster.instances, made, Group.create]

theorem settings_made (s : Simulation) (name : String) (settings : GroupSettings)
    (source : Source) :
    (s.made name settings source).cluster.groups[s.cluster.groups.size]?.map Group.settings =
      some settings := by
  simp [made, Group.create]

variable (h : s.Lone) (settings : GroupSettings) (source : Source)
include h

/-- A group that is made leaves the numbers of the others as they are. -/
theorem renumber_made (owners : List String) (name other : String) :
    (share name owners s.cluster.tasks.toList).map
        (Task.renumber (rank name (s.cluster.instances ++ [other]))) =
      (share name owners s.cluster.tasks.toList).map
        (Task.renumber (rank name s.cluster.instances)) :=
  List.map_congr_left fun _ hmem ↦ renumber_append _ name (h.frames_lt (mem_of_mem_share hmem))

/-- A group that is made is made in the slice of its name. -/
theorem slice_made (hnone : s.cluster.group? 0 name = none) :
    (s.made name settings source).slice owners name =
      (s.slice owners name).made name settings source := by
  obtain ⟨node, hnodes, -⟩ := h.alone
  have hlookup : node.registry.lookup name = none := by
    simpa [Cluster.group?, hnodes] using hnone
  have hgroups := length_instances s.cluster
  have hsources := h.length_instances
  have hnode := node.slice_register s.cluster.instances (Cluster.ne_of_lookup hlookup)
  rw [hgroups, Array.length_toList] at hnode
  rw [slice, Cluster.slice, instances_made]
  simp [made, slice, Cluster.slice, hnodes, hnode, renumber_made h, share_append hgroups,
    share_append hsources, length_share hgroups]

/-- A group that is made leaves the slices of other names as they are. -/
theorem slice_made_of_ne (hne : other ≠ name) :
    (s.made other settings source).slice owners name = s.slice owners name := by
  obtain ⟨node, hnodes, -⟩ := h.alone
  have hgroups := length_instances s.cluster
  have hsources := h.length_instances
  have hfirst : s.cluster.nodes[0]? = some node := by simp [hnodes]
  have hnode := node.slice_register_of_ne
    (fun entry hmem ↦ (List.getElem?_eq_some_iff.1 (h.registered hfirst hmem)).1)
    s.cluster.groups.size hne
  rw [slice, Cluster.slice, instances_made]
  simp [made, slice, Cluster.slice, hnodes, hnode, renumber_made h, share_append hgroups,
    share_append hsources, hne]

omit h settings source

theorem group?_slice (s : Simulation) (owners : List String) (name : String) :
    (s.slice owners name).cluster.group? 0 name =
      (s.cluster.group? 0 name).map (rank name s.cluster.instances) := by
  simp only [Cluster.group?, slice, Cluster.slice, Array.getElem?_map, bind]
  cases s.cluster.nodes[0]? with
  | none => rfl
  | some node => exact Cluster.lookup_slice node s.cluster.instances name

theorem slice_removeGroup (h : s.Lone) (owners : List String) (name : String) :
    ({ s with cluster := (s.cluster.removeGroup 0 name).2 } : Simulation).slice owners name =
      { s.slice owners name with
        cluster := ((s.slice owners name).cluster.removeGroup 0 name).2 } := by
  obtain ⟨node, hnodes, -⟩ := h.alone
  simp [slice, Cluster.slice, Cluster.removeGroup, Cluster.modifyNode, Cluster.instances, hnodes,
    Node.slice, List.filter_filter, List.filter_map, Function.comp_def]

theorem slice_removeGroup_of_ne (h : s.Lone) (owners : List String) (hne : other ≠ name) :
    ({ s with cluster := (s.cluster.removeGroup 0 other).2 } : Simulation).slice owners name =
      s.slice owners name := by
  obtain ⟨node, hnodes, -⟩ := h.alone
  have hsame :
      node.registry.filter
          (fun entry ↦ decide (entry.1 = name) && !decide (entry.1 = other)) =
        node.registry.filter fun entry ↦ entry.1 = name :=
    List.filter_congr fun entry _ ↦ by
      by_cases heq : entry.1 = name
      · simp [heq, hne.symm]
      · simp [heq]
  simp [slice, Cluster.slice, Cluster.removeGroup, Cluster.modifyNode, Cluster.instances, hnodes,
    Node.slice, List.filter_filter, hsame]

section

variable {before group : Group} (hgroup : s.cluster.groups[index]? = some before)
  (hsame : group.name = before.name)
include hgroup hsame

theorem slice_setGroup :
    ({ s with cluster := s.cluster.setGroup index group } : Simulation).slice owners before.name =
      { s.slice owners before.name with
        cluster := (s.slice owners before.name).cluster.setGroup
          (rank before.name s.cluster.instances index) group } := by
  have hinstance := instance_of_group hgroup
  rw [slice, Cluster.slice, instances_setGroup hgroup hsame]
  simp [slice, Cluster.slice, Cluster.setGroup, share_set hinstance]

theorem slice_setGroup_of_ne (hne : before.name ≠ name) :
    ({ s with cluster := s.cluster.setGroup index group } : Simulation).slice owners name =
      s.slice owners name := by
  have hinstance := instance_of_group hgroup
  rw [slice, Cluster.slice, instances_setGroup hgroup hsame]
  simp [slice, Cluster.slice, Cluster.setGroup, share_set_of_ne hinstance hne]

end

theorem slice_get (h : s.Lone) (hsize : owners.length = s.cluster.tasks.size)
    (hfinished : ∀ number ∈ s.cluster.finished, number < owners.length)
    (key : String) (hearsToken cancelled : Bool) (timeout : Option Millis) :
    ({ s with cluster := (s.cluster.get 0 index key hearsToken cancelled timeout).2 } :
        Simulation).slice (owners ++ [name]) name =
      { s.slice owners name with
        cluster := ((s.slice owners name).cluster.get 0 (rank name s.cluster.instances index) key
          hearsToken cancelled timeout).2 } := by
  have htasks : owners.length = s.cluster.tasks.toList.length := by simpa using hsize
  have hcalls : ∀ call ∈ s.calls, call.1 < owners.length := hsize ▸ h.calls
  have hranks : ∀ number ∈ s.cluster.finished.toList, number < owners.length := by
    simpa using hfinished
  simp [slice, Cluster.slice, Cluster.get, Cluster.begin, Cluster.instances, share_append htasks,
    ranks_extend name hranks, callsOn_append hcalls, Task.renumber, Frame.renumber]

theorem slice_get_of_ne (h : s.Lone) (hsize : owners.length = s.cluster.tasks.size)
    (hfinished : ∀ number ∈ s.cluster.finished, number < owners.length) (hne : other ≠ name)
    (key : String) (hearsToken cancelled : Bool) (timeout : Option Millis) :
    ({ s with cluster := (s.cluster.get 0 index key hearsToken cancelled timeout).2 } :
        Simulation).slice (owners ++ [other]) name = s.slice owners name := by
  have htasks : owners.length = s.cluster.tasks.toList.length := by simpa using hsize
  have hcalls : ∀ call ∈ s.calls, call.1 < owners.length := hsize ▸ h.calls
  have hranks : ∀ number ∈ s.cluster.finished.toList, number < owners.length := by
    simpa using hfinished
  simp [slice, Cluster.slice, Cluster.get, Cluster.begin, Cluster.instances, share_append htasks,
    ranks_extend name hranks, callsOn_append hcalls, hne]

theorem slice_cancel (s : Simulation) (h : owners[number]? = some name) :
    ({ s with cluster := s.cluster.cancel number } : Simulation).slice owners name =
      { s.slice owners name with
        cluster := (s.slice owners name).cluster.cancel (rank name owners number) } := by
  have htasks := map_modify (Task.renumber (rank name s.cluster.instances))
    (fun task ↦ { task with cancelled := true }) (fun task ↦ { task with cancelled := true })
    (fun _ ↦ rfl) (share name owners s.cluster.tasks.toList) (rank name owners number)
  simp [slice, Cluster.slice, Cluster.cancel, Cluster.modifyTask, Cluster.instances,
    share_modify h]
  exact htasks

theorem slice_cancel_of_ne (s : Simulation) (h : owners[number]? = some other)
    (hne : other ≠ name) :
    ({ s with cluster := s.cluster.cancel number } : Simulation).slice owners name =
      s.slice owners name := by
  simp [slice, Cluster.slice, Cluster.cancel, Cluster.modifyTask, Cluster.instances,
    share_modify_of_ne h hne]

end Simulation

end ReadThrough
