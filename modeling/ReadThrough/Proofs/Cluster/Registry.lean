import Mathlib.Order.Defs.LinearOrder
import Mathlib.Data.List.Induction
import Mathlib.Data.String.Basic
import ReadThrough.Proofs.Cluster.Sessions

/-!
# The registry of a session

Operations change the registry of a session only by making groups and taking names off
(`Registers`), and never the settings of a group instance. So the names on the registry are in
order, and are those that were created and not removed since (`after_registers`).
-/

namespace ReadThrough

namespace Cluster

variable {name other : String} {number : Nat} {registry : List (String × Nat)}

theorem lookup_register (number : Nat) (h : registry.lookup name = none) :
    (register name number registry).lookup name = some number := by
  induction registry with
  | nil => simp [register]
  | cons entry registry ih =>
      rw [List.lookup_cons] at h
      split at h
      · cases h
      · next hne =>
        unfold register
        split
        · simp
        · rw [List.lookup_cons, hne]
          exact ih h

theorem lookup_register_of_ne (number : Nat) (hne : other ≠ name) :
    (register name number registry).lookup other = registry.lookup other := by
  induction registry with
  | nil => simp [register, List.lookup_cons, beq_eq_false_iff_ne.2 hne]
  | cons entry registry ih =>
      unfold register
      split
      · rw [List.lookup_cons, beq_eq_false_iff_ne.2 hne]
      · rw [List.lookup_cons, List.lookup_cons, ih]

/-- The names of a registry once one more was put into it. -/
theorem mem_names_register (number : Nat) :
    other ∈ (register name number registry).map Prod.fst ↔
      other = name ∨ other ∈ registry.map Prod.fst := by
  induction registry with
  | nil => simp [register]
  | cons entry registry ih =>
      unfold register
      split
      · simp
      · rw [List.map_cons, List.mem_cons, ih, List.map_cons, List.mem_cons]
        exact or_left_comm

/-- A new name is put where it belongs. -/
theorem pairwise_register (number : Nat) (h : (registry.map Prod.fst).Pairwise (· < ·))
    (hnew : name ∉ registry.map Prod.fst) :
    ((register name number registry).map Prod.fst).Pairwise (· < ·) := by
  induction registry with
  | nil => simp [register]
  | cons entry registry ih =>
      rw [List.map_cons, List.mem_cons, not_or] at hnew
      obtain ⟨hfirst, hrest⟩ := List.pairwise_cons.1 h
      unfold register
      split
      · next hlt =>
        refine List.pairwise_cons.2 ⟨List.forall_mem_cons.2 ⟨hlt, fun other hmem ↦ ?_⟩, h⟩
        exact lt_trans hlt (hfirst other hmem)
      · next hle =>
        refine List.pairwise_cons.2 ⟨fun other hmem ↦ ?_, ih hrest hnew.2⟩
        rcases mem_names_register number |>.1 hmem with rfl | hmem
        · exact lt_of_le_of_ne (not_lt.1 hle) (Ne.symm hnew.1)
        · exact hfirst other hmem

end Cluster

/-- The registry of the first node. -/
def Cluster.registry (c : Cluster) : List (String × Nat) :=
  (c.nodes[0]?.map Node.registry).getD []

/-- The settings of a group instance. -/
def Cluster.settings? (c : Cluster) (number : Nat) : Option GroupSettings :=
  c.groups[number]?.map Group.settings

theorem Cluster.group?_eq_lookup (c : Cluster) (name : String) :
    c.group? 0 name = c.registry.lookup name := by
  simp only [group?, registry, bind]
  cases c.nodes[0]? <;> rfl

theorem Cluster.groupNames_eq (c : Cluster) : c.groupNames 0 = c.registry.map Prod.fst := by
  simp only [groupNames, registry]
  cases c.nodes[0]? <;> rfl

namespace Simulation

variable {s following : Simulation} {number index : Nat} {name : String}

/-- What a change of a cluster does to the registry, and to the settings of group instances. -/
structure Registers (s following : Simulation) (registry : List (String × Nat)) : Prop where
  lone : following.Lone
  registry : following.cluster.registry = registry
  settings : ∀ (number : Nat) (settings : GroupSettings),
    s.cluster.settings? number = some settings → following.cluster.settings? number = some settings

/-- What is found under a name is an instance of it. -/
theorem Lone.instance_of_name (h : s.Lone) (hnumber : s.cluster.group? 0 name = some number) :
    s.cluster.instances[number]? = some name := by
  simp only [Cluster.group?, bind, Option.bind_eq_some_iff] at hnumber
  obtain ⟨node, hnode, hlookup⟩ := hnumber
  exact h.registered hnode (mem_of_lookup hlookup)

/-- The statistics of a node are those of the groups on its registry. -/
theorem Lone.names_stats (h : s.Lone) :
    (s.cluster.stats 0).map GroupStats.name = s.cluster.groupNames 0 := by
  obtain ⟨node, hnodes, -⟩ := h.alone
  have hnode : s.cluster.nodes[0]? = some node := by simp [hnodes]
  simp only [Cluster.stats, Cluster.groupNames, hnode]
  have hentries : ∀ entry ∈ node.registry, ∃ group,
      s.cluster.groups[entry.2]? = some group ∧ group.name = entry.1 := fun entry hmem ↦ by
    have hinstance := h.registered hnode hmem
    rw [Cluster.instances, List.getElem?_map, Array.getElem?_toList] at hinstance
    exact Option.map_eq_some_iff.1 hinstance
  generalize node.registry = entries at hentries
  induction entries with
  | nil => rfl
  | cons entry entries ih =>
      obtain ⟨hfirst, hrest⟩ := List.forall_mem_cons.1 hentries
      obtain ⟨group, hgroup, hname⟩ := hfirst
      rw [List.filterMap_cons, hgroup, Option.map_some, List.map_cons, ih hrest, List.map_cons,
        ← hname]
      rfl

variable {registry : List (String × Nat)}

theorem Keeps.settings (h : Keeps s following) (number : Nat) :
    following.cluster.settings? number = s.cluster.settings? number := by
  have hsnd : ∀ c : Cluster, c.settings? number =
      (c.groups.map fun group ↦ (group.name, group.settings))[number]?.map Prod.snd := fun c ↦ by
    rw [Array.getElem?_map, Option.map_map]
    rfl
  rw [hsnd, hsnd, h.groups]

theorem Keeps.registers (h : Keeps s following) (hlone : following.Lone) :
    Registers s following s.cluster.registry :=
  ⟨hlone, by rw [Cluster.registry, h.nodes, Cluster.registry],
    fun number _ hsettings ↦ (h.settings number).trans hsettings⟩

theorem Registers.settle (h : Registers s following registry) :
    Registers s following.settle registry := by
  obtain ⟨hlone, hkeeps⟩ := h.lone.steps (rounds_steps _ following)
  refine ⟨hlone, ?_, fun number settings hsettings ↦ ?_⟩
  · rw [← h.registry]
    exact (hkeeps.registers hlone).registry
  · exact (hkeeps.settings number).trans (h.settings number settings hsettings)

/-- A change that leaves nodes and groups as they are. -/
theorem Lone.registers (h : following.Lone) (hnodes : following.cluster.nodes = s.cluster.nodes)
    (hgroups : following.cluster.groups = s.cluster.groups) :
    Registers s following s.cluster.registry :=
  ⟨h, by rw [Cluster.registry, hnodes, Cluster.registry], fun number settings hsettings ↦ by
    rwa [Cluster.settings?, hgroups]⟩

end Simulation

namespace Session

/-- What an operation does to a registry, given the number of the next group. -/
def enlist (next : Nat) (registry : List (String × Nat)) : Operation → List (String × Nat)
  | .create name _ _ =>
      if (registry.lookup name).isSome then registry else Cluster.register name next registry
  | .removeGroup name => registry.filter fun entry ↦ entry.1 ≠ name
  | _ => registry

variable {s : Session} {name : String}

/-- What a handle refers to is of the name that it has. -/
theorem group_of_find? (h : s.sim.Lone) {handle : Handle} {number : Nat} {group : Group}
    (hfind : s.find? handle = some (number, group)) :
    s.sim.cluster.groups[number]? = some group ∧ handle.name? s = some group.name := by
  simp only [find?, bind, pure, Option.bind_eq_some_iff, Option.some.injEq, Prod.mk.injEq] at hfind
  obtain ⟨found, hnumber, group', hgroup, rfl, rfl⟩ := hfind
  have hinstance : s.instances[found]? = some group'.name := Simulation.instance_of_group hgroup
  refine ⟨hgroup, ?_⟩
  cases handle with
  | handed => exact Option.some.inj hnumber ▸ hinstance
  | named other => exact (h.instance_of_name hnumber).symm.trans hinstance

/-- What an operation does to the registry of a session. -/
theorem perform_registers (h : s.sim.Lone) (operation : Operation) :
    s.sim.Registers (s.perform operation).2.sim
      (enlist s.sim.cluster.groups.size s.sim.cluster.registry operation) := by
  have hsame : s.sim.Registers s.sim s.sim.cluster.registry := h.registers rfl rfl
  cases operation with
  | create name settings source =>
      simp only [perform, enlist]
      cases hnumber : s.sim.cluster.group? 0 name with
      | some number =>
          rw [Simulation.getOrCreate_of_some settings source hnumber, ← Cluster.group?_eq_lookup,
            hnumber]
          exact hsame.settle
      | none =>
          rw [Simulation.getOrCreate_of_none settings source hnumber, ← Cluster.group?_eq_lookup,
            hnumber]
          refine Simulation.Registers.settle ⟨(h.made hnumber settings source).lone, ?_, ?_⟩
          · obtain ⟨node, hnodes, -⟩ := h.alone
            simp [Cluster.registry, Simulation.made, hnodes]
          · intro number found hfound
            obtain ⟨group, hgroup, -⟩ := Option.map_eq_some_iff.1 hfound
            have hlt := (Array.getElem?_eq_some_iff.1 hgroup).1
            rw [← hfound]
            simp [Cluster.settings?, Simulation.made, Array.getElem?_push, Nat.ne_of_lt hlt]
  | removeGroup name =>
      refine Simulation.Registers.settle ⟨(h.removeGroup name).lone, ?_, fun _ _ ↦ id⟩
      obtain ⟨node, hnodes, -⟩ := h.alone
      simp [Cluster.registry, Cluster.modifyNode, hnodes, enlist]
  | get handle key hearsToken cancelled timeout =>
      simp only [perform, enlist]
      cases hfind : s.find? handle with
      | none => exact hsame
      | some found =>
          obtain ⟨hgroup, -⟩ := group_of_find? h hfind
          have hlone := (h.get hgroup key hearsToken cancelled timeout).1
          exact Simulation.Registers.settle (hlone.registers rfl rfl)
  | remove handle key =>
      simp only [perform, enlist]
      cases hfind : s.find? handle with
      | none => exact hsame
      | some found =>
          obtain ⟨number, group⟩ := found
          obtain ⟨hgroup, -⟩ := group_of_find? h hfind
          simp only [Simulation.onGroup, hgroup]
          refine Simulation.Registers.settle ⟨(h.remove hgroup key).lone, rfl, ?_⟩
          intro other settings hsettings
          rw [← hsettings, Cluster.settings?, Cluster.settings?, ← Array.getElem?_map,
            ← Array.getElem?_map, Cluster.setGroup, Array.map_setIfInBounds,
            Cluster.setIfInBounds_same]
          rw [Array.getElem?_map, hgroup, Option.map_some, (group.remove_kept key).settings]
  | cancel task => exact Simulation.Registers.settle ((h.cancel task).lone.registers rfl rfl)
  | drop task =>
      obtain ⟨following, hdrop, hlone, hkeeps⟩ := h.drop task
      simp only [perform, enlist, hdrop]
      exact (hkeeps.registers hlone).settle
  | finish task answer =>
      simp only [perform, enlist]
      cases hanswer : s.sim.answerLoad? task answer with
      | none => exact hsame
      | some following =>
          obtain ⟨_, _, _, hat, hturns, hcomes, hlone⟩ := h.answerLoad? hanswer
          exact ((hcomes.keeps hat hturns).registers hlone).settle
  | advance span => exact Simulation.Registers.settle ((h.advance span).lone.registers rfl rfl)

/-- Which names an operation leaves on a registry. -/
theorem mem_names_enlist (next : Nat) (registry : List (String × Nat)) (operation : Operation) :
    name ∈ (enlist next registry operation).map Prod.fst ↔
      (∃ settings source, operation = .create name settings source) ∨
        operation ≠ .removeGroup name ∧ name ∈ registry.map Prod.fst := by
  cases operation with
  | create other settings source =>
      rw [enlist]
      split
      · next hsome =>
        obtain ⟨number, hlookup⟩ := Option.isSome_iff_exists.1 hsome
        have hother : other ∈ registry.map Prod.fst :=
          List.mem_map_of_mem (mem_of_lookup hlookup)
        simp only [Operation.create.injEq, ne_eq, reduceCtorEq, not_false_eq_true, true_and]
        exact ⟨.inr, fun hcases ↦ hcases.elim (fun ⟨_, _, heq, _⟩ ↦ heq ▸ hother) id⟩
      · rw [Cluster.mem_names_register]
        simp [eq_comm]
  | removeGroup other =>
      simp only [enlist, List.mem_map, List.mem_filter, decide_eq_true_eq, ne_eq, reduceCtorEq,
        exists_false, false_or, Operation.removeGroup.injEq]
      constructor
      · rintro ⟨entry, ⟨hmem, hne⟩, rfl⟩
        exact ⟨Ne.symm hne, entry, hmem, rfl⟩
      · rintro ⟨hne, entry, hmem, rfl⟩
        exact ⟨entry, ⟨hmem, Ne.symm hne⟩, rfl⟩
  | get | remove | cancel | drop | finish | advance => simp [enlist]

theorem created_concat (operations : List Operation) (operation : Operation) :
    Created name (operations ++ [operation]) ↔
      (∃ settings source, operation = .create name settings source) ∨
        operation ≠ .removeGroup name ∧ Created name operations := by
  constructor
  · rintro ⟨before, settings, source, rest, heq, hnot⟩
    rcases List.eq_nil_or_concat rest with rfl | ⟨earlier, last, rfl⟩
    · obtain ⟨-, hlast⟩ := List.append_inj' heq rfl
      exact .inl ⟨settings, source, List.head_eq_of_cons_eq hlast⟩
    · rw [List.concat_eq_append, ← List.cons_append, ← List.append_assoc] at heq
      obtain ⟨hfront, hlast⟩ := List.append_inj' heq rfl
      obtain rfl := List.head_eq_of_cons_eq hlast
      rw [List.concat_eq_append, List.mem_append, not_or, List.mem_singleton] at hnot
      exact .inr ⟨Ne.symm hnot.2, before, settings, source, earlier, hfront, hnot.1⟩
  · rintro (⟨settings, source, rfl⟩ | ⟨hne, before, settings, source, rest, rfl, hnot⟩)
    · exact ⟨operations, settings, source, [], rfl, List.not_mem_nil⟩
    · refine ⟨before, settings, source, rest ++ [operation], by simp, ?_⟩
      rw [List.mem_append, not_or, List.mem_singleton]
      exact ⟨hnot, hne.symm⟩

theorem pairwise_enlist (next : Nat) {registry : List (String × Nat)}
    (h : (registry.map Prod.fst).Pairwise (· < ·)) (operation : Operation) :
    ((enlist next registry operation).map Prod.fst).Pairwise (· < ·) := by
  cases operation with
  | create other settings source =>
      rw [enlist]
      split
      · exact h
      · next hnone =>
        refine Cluster.pairwise_register next h fun hmem ↦ ?_
        obtain ⟨entry, hentry, rfl⟩ := List.mem_map.1 hmem
        exact Cluster.ne_of_lookup (Option.not_isSome_iff_eq_none.1 hnone) entry hentry rfl
  | removeGroup other => exact h.sublist (List.filter_sublist.map _)
  | get | remove | cancel | drop | finish | advance => exact h

/-- The session of a script, from a node that fetches nothing and has no groups. -/
theorem after_registers (h : s.sim.Lone) (hempty : s.sim.cluster.registry = [])
    (operations : List Operation) :
    (s.after operations).sim.Lone ∧
      ((s.after operations).sim.cluster.registry.map Prod.fst).Pairwise (· < ·) ∧
      ∀ name, name ∈ (s.after operations).sim.cluster.registry.map Prod.fst ↔
        Created name operations := by
  induction operations using List.reverseRecOn with
  | nil =>
      refine ⟨h, by simp [after, hempty], fun name ↦ ?_⟩
      simp [after, hempty, Created]
  | append_singleton operations operation ih =>
      obtain ⟨hlone, hsorted, hnames⟩ := ih
      have hperform := perform_registers hlone operation
      rw [after, List.foldl_concat]
      rw [← after]
      refine ⟨hperform.lone, ?_, fun name ↦ ?_⟩
      · rw [hperform.registry]
        exact pairwise_enlist _ hsorted operation
      · rw [hperform.registry, mem_names_enlist, created_concat, hnames]

/-- What is registered under a name stays so until the name is taken off. -/
theorem lookup_enlist (next : Nat) {registry : List (String × Nat)} {number : Nat}
    {operation : Operation} (h : registry.lookup name = some number)
    (hkept : operation ≠ .removeGroup name) :
    (enlist next registry operation).lookup name = some number := by
  cases operation with
  | create other settings source =>
      rw [enlist]
      split
      · exact h
      · next hnone =>
        have hne : name ≠ other := fun heq ↦ hnone (by rw [← heq, h]; rfl)
        rw [Cluster.lookup_register_of_ne next hne, h]
  | removeGroup other =>
      have hne : name ≠ other := fun heq ↦ hkept (congrArg Operation.removeGroup heq.symm)
      exact (lookup_filter_of_ne hne registry).trans h
  | get | remove | cancel | drop | finish | advance => exact h

/-- A group that is registered stays so, with its settings, until its name is taken off. -/
theorem after_registered (h : s.sim.Lone) {number : Nat} {settings : GroupSettings}
    (hnumber : s.sim.cluster.registry.lookup name = some number)
    (hsettings : s.sim.cluster.settings? number = some settings) {operations : List Operation}
    (hkept : .removeGroup name ∉ operations) :
    (s.after operations).sim.cluster.registry.lookup name = some number ∧
      (s.after operations).sim.cluster.settings? number = some settings := by
  induction operations generalizing s with
  | nil => exact ⟨hnumber, hsettings⟩
  | cons operation rest ih =>
      rw [List.mem_cons, not_or] at hkept
      obtain ⟨hlone, hregistry, hsame⟩ := perform_registers h operation
      refine ih hlone ?_ (hsame number settings hsettings) hkept.2
      rw [hregistry]
      exact lookup_enlist _ hnumber (Ne.symm hkept.1)

/-- Under a name that is not registered a group is made, which is there from then on. -/
theorem perform_create_of_none (h : s.sim.Lone) (settings : GroupSettings) (source : Source)
    (hnone : s.sim.cluster.registry.lookup name = none) :
    let created := s.perform (.create name settings source)
    created.1 = .group s.sim.cluster.groups.size false (some settings) ∧
      created.2.sim.cluster.registry.lookup name = some s.sim.cluster.groups.size ∧
      created.2.sim.cluster.settings? s.sim.cluster.groups.size = some settings := by
  intro created
  have hnumber : s.sim.cluster.group? 0 name = none :=
    (s.sim.cluster.group?_eq_lookup name).trans hnone
  have hcreated : created = (.group s.sim.cluster.groups.size false (some settings),
      { s with sim := (s.sim.made name settings source).settle }) := by
    simp only [created, perform, Simulation.getOrCreate_of_none settings source hnumber,
      Simulation.settings_made]
  have hregistry := (perform_registers h (.create name settings source)).registry
  refine ⟨by rw [hcreated], ?_, ?_⟩
  · show (s.perform (.create name settings source)).2.sim.cluster.registry.lookup name = _
    rw [hregistry, enlist, hnone, Option.isSome_none, if_neg Bool.false_ne_true]
    exact Cluster.lookup_register _ hnone
  · rw [hcreated]
    obtain ⟨-, hkeeps⟩ := (h.made hnumber settings source).lone.steps (Simulation.rounds_steps _ _)
    exact (hkeeps.settings _).trans (Simulation.settings_made ..)

/-- Under a name that is registered nothing is made. -/
theorem perform_create_of_some {number : Nat} (settings : GroupSettings) (source : Source)
    (hnumber : s.sim.cluster.registry.lookup name = some number) :
    (s.perform (.create name settings source)).1 =
      .group number true (s.sim.cluster.settings? number) := by
  have hfound : s.sim.cluster.group? 0 name = some number :=
    (s.sim.cluster.group?_eq_lookup name).trans hnumber
  simp only [perform, Simulation.getOrCreate_of_some settings source hfound]
  rfl

end Session

end ReadThrough
