import Mathlib.Logic.Function.Iterate
import Mathlib.Logic.Relation
import ReadThrough.Proofs.Cluster.Turns
import ReadThrough.Proofs.Cluster.Verdicts

/-!
# Rounds come to rest

A node that fetches nothing and whose gates are shut has gets at stations, and gets that are over
(`Lone`). Whoever has a turn in a round rests or ends in it, and disturbs the rest of the others
only if it ends, since only then a flight comes down (`runTask_turned`). So a round that ends no get
leaves all of them at rest, and no more rounds are needed than there are gets (`settle_rests`).
-/

namespace ReadThrough

/-- A station once a get at a station of the same group, or of another one, has made a
transition. -/
def Station.beside (st : Station) (same : Bool) (deed : Deed) : Station :=
  if same then { st with group := deed.group, source := deed.source } else st

/-- A task that is over does nothing any more. -/
structure Task.Over (task : Task) : Prop where
  frames : task.frames = []
  settled : task.pending = false

theorem eq_none_of_rel {A B : Type} {r : A → B → Prop} {first : Option A} {second : Option B}
    (h : Option.Rel r first second) : first = none ↔ second = none := by
  cases h with
  | some => exact ⟨nofun, nofun⟩
  | none => exact ⟨fun _ ↦ rfl, fun _ ↦ rfl⟩

theorem exists_of_rel {A B : Type} {r : A → B → Prop} {a : A} {second : Option B}
    (h : Option.Rel r (some a) second) : ∃ b, second = some b ∧ r a b := by
  cases h with
  | some hrel => exact ⟨_, rfl, hrel⟩

/-- An item that changes counts as it then is. -/
theorem countP_modify {A : Type} {p : A → Bool} {items : List A} {number : Nat} {item : A}
    (h : items[number]? = some item) (change : A → A) :
    (items.modify number change).countP p + (if p item then 1 else 0) =
      items.countP p + if p (change item) then 1 else 0 := by
  induction items generalizing number with
  | nil => simp at h
  | cons first rest ih =>
      cases number with
      | zero =>
          obtain rfl : first = item := by simpa using h
          simp only [List.modify_zero_cons, List.countP_cons]
          omega
      | succ number =>
          rw [List.getElem?_cons_succ] at h
          have hrest := ih h
          simp only [List.modify_succ_cons, List.countP_cons]
          omega

namespace Simulation

variable {s following : Simulation} {number other index : Nat} {st next : Station} {deed : Deed}
  {now : Millis} {node : String}

/-! ## What a deed leaves of the stations -/

theorem put_task (h : s.cluster.tasks[number]? = some (st.task index)) :
    (s.put number index deed).cluster.tasks[number]? = some (deed.fate.apply (st.task index)) := by
  simp [put, Cluster.put, Array.getElem?_modify, h]

theorem put_task_of_ne (hne : other ≠ number) (index : Nat) (deed : Deed) :
    (s.put number index deed).cluster.tasks[other]? = s.cluster.tasks[other]? := by
  simp [put, Cluster.put, Array.getElem?_modify, hne.symm]

theorem lookup_put (s : Simulation) (number index : Nat) (deed : Deed) :
    (s.put number index deed).calls.lookup number = deed.call.map .load := by
  cases hcall : deed.call with
  | some call => simp [put, hcall]
  | none =>
      simp only [put, hcall, Option.map_none, Option.toList_none, List.nil_append,
        List.lookup_eq_none_iff]
      intro call hmem
      exact bne_iff_ne.2 (of_decide_eq_true (List.mem_filter.1 hmem).2).symm

theorem lookup_put_of_ne (hne : other ≠ number) (index : Nat) (deed : Deed) :
    (s.put number index deed).calls.lookup other = s.calls.lookup other := by
  rw [put]
  cases deed.call with
  | none => exact lookup_filter_of_ne hne s.calls
  | some call =>
      rw [Option.map_some, Option.toList_some, List.singleton_append, List.lookup_cons,
        beq_eq_false_iff_ne.2 hne]
      exact lookup_filter_of_ne hne s.calls

/-- The get that made a transition goes on at its station. -/
theorem At.own (h : s.At number index st) (hturns : st.Turns now node deed)
    (hnext : st.next? deed = some next) : (s.put number index deed).At number index next := by
  have hfits := hturns.fits h.fits hnext
  unfold Station.next? at hnext
  split at hnext
  · next stage hfate =>
    obtain rfl := Option.some.inj hnext
    refine ⟨?_, ?_, ?_, lookup_put .., hfits⟩
    · rw [put_task h.task, hfate]
      rfl
    · have hlt := (Array.getElem?_eq_some_iff.1 h.group).1
      simp [put, Cluster.put, hlt]
    · have hlt := (Array.getElem?_eq_some_iff.1 h.source).1
      simp [put, hlt]
  · cases hnext
  · cases hnext

/-- Another get goes on at its station. -/
theorem At.beside {place : Nat} (h : s.At other place st) (hne : other ≠ number) :
    (s.put number index deed).At other place (st.beside (place == index) deed) := by
  have htask := (put_task_of_ne hne index deed).trans h.task
  have hcall := (lookup_put_of_ne hne index deed).trans h.call
  by_cases heq : place = index
  · subst heq
    rw [beq_self_eq_true]
    refine ⟨htask, ?_, ?_, hcall, h.fits⟩
    · have hlt := (Array.getElem?_eq_some_iff.1 h.group).1
      simp [put, Cluster.put, hlt, Station.beside]
    · have hlt := (Array.getElem?_eq_some_iff.1 h.source).1
      simp [put, hlt, Station.beside]
  · rw [beq_eq_false_iff_ne.2 heq]
    refine ⟨htask, ?_, ?_, hcall, h.fits⟩
    · simpa [put, Cluster.put, Ne.symm heq, Station.beside] using h.group
    · simpa [put, Ne.symm heq, Station.beside] using h.source

theorem same_of_ungated (h : following.ungated = s.ungated) :
    following.cluster = s.cluster ∧ following.sources = s.sources ∧ following.calls = s.calls := by
  simp only [ungated, Simulation.mk.injEq] at h
  exact ⟨h.1, h.2.1, h.2.2.2.2⟩

/-- A get is at one station only. -/
theorem At.unique {place : Nat} {found : Station} (h : s.At number index st)
    (h' : s.At number place found) : place = index ∧ found = st := by
  have htask := h.task.symm.trans h'.task
  simp only [Station.task, Station.frame, Option.some.injEq, Task.mk.injEq, List.cons.injEq,
    Frame.mk.injEq] at htask
  obtain ⟨-, hcancelled, hdeadline, ⟨⟨-, rfl, hkey, hhears, hstage⟩, -⟩, -⟩ := htask
  have hgroup := Option.some.inj (h.group.symm.trans h'.group)
  have hsource := Option.some.inj (h.source.symm.trans h'.source)
  have hcall := Option.map_injective (fun _ _ ↦ Outstanding.load.inj) (h.call.symm.trans h'.call)
  -- all fields agree by now
  obtain ⟨⟩ := st
  obtain ⟨⟩ := found
  simp_all

/-- What stands at gates has no part in stations. -/
theorem At.congr (h : s.At number index st) (hsame : following.ungated = s.ungated) :
    following.At number index st := by
  obtain ⟨hcluster, hsources, hcalls⟩ := same_of_ungated hsame
  exact ⟨hcluster ▸ h.task, hcluster ▸ h.group, hsources ▸ h.source, hcalls ▸ h.call, h.fits⟩

/-! ## Nodes with gets at stations -/

/-- Clusters that actions can lead to. -/
abbrev Reached (c : Cluster) : Prop :=
  Cluster.Runs (fun _ _ ↦ True) .empty c

/-- A transition of a get at a station is an action, or leaves the cluster as it is. -/
theorem At.reached (h : s.At number index st) (hlocal : s.Local) (hreached : Reached s.cluster)
    (hstep : st.step? s.cluster.now s.name = some deed) :
    Reached (s.cluster.put number index deed) := by
  have hact : ∀ {found : Option Deed} (action : Cluster.Action), found = some deed →
      s.cluster.act? action = found.map (s.cluster.put number index) →
      Reached (s.cluster.put number index deed) := by
    intro found action hfound heq
    exact hreached.next trivial (heq.trans (by rw [hfound]; rfl))
  simp only [Station.step?, Option.orElse_eq_orElse, Option.orElse_eq_or,
    Option.or_eq_some_iff] at hstep
  rcases hstep with hheed | ⟨-, hmove | ⟨-, hcall | ⟨-, hexpire⟩⟩⟩
  · exact hact (.heed number 0) hheed (Cluster.heed?_station h.task h.group)
  · obtain ⟨node, hnodes, hpick⟩ := hlocal
    have hnode : s.cluster.nodes[0]? = some node := by simp [hnodes]
    have hname : s.name = node.id := by simp [Simulation.name, hnode]
    rw [hname] at hmove
    exact hact (.step number) hmove (Cluster.step?_station h.task h.group hnode hpick)
  · have hanswer : ∀ answer, st.answer? s.cluster.now answer = some deed →
        Reached (s.cluster.put number index deed) := fun answer hanswer ↦
      hact (.answerLoad number answer) hanswer (Cluster.answerLoad?_station h.task h.group answer)
    have hcalling : ∀ call source, st.calling call source = deed →
        Reached (s.cluster.put number index deed) := by
      rintro call source rfl
      rwa [h.put_calling]
    unfold Station.call? at hcall
    split at hcall
    · split at hcall
      · exact hanswer _ hcall
      · exact hcalling _ _ (Option.some.inj hcall)
      · cases hcall
    · split at hcall
      · exact hcalling _ _ (Option.some.inj hcall)
      · cases hcall
    · cases hcall
    · exact hanswer _ hcall
  · exact hact (.expire number) hexpire (Cluster.expire?_station h.task h.group)

/-- A simulation of a node that fetches nothing, with its gets at stations unless they are over. -/
structure Lone (s : Simulation) : Prop where
  reached : Reached s.cluster
  alone : s.Local
  shut : s.Shut
  sources : s.sources.size = s.cluster.groups.size
  gets : ∀ (number : Nat) (task : Task), s.cluster.tasks[number]? = some task →
    task.Over ∨ ∃ index st, s.At number index st
  calls : ∀ call ∈ s.calls, call.1 < s.cluster.tasks.size

/-- A get that is over makes no transition. -/
theorem stepTask?_of_over (h : ∀ task, s.cluster.tasks[number]? = some task → task.Over) :
    s.stepTask? number = none := by
  cases htask : s.cluster.tasks[number]? with
  | none =>
      simp [stepTask?, heed?, expire?, continueCall?, innermost?, Cluster.heed?, Cluster.step?,
        Cluster.expire?, htask]
  | some task =>
      obtain ⟨hframes, hpending⟩ := h task htask
      simp [stepTask?, heed?, expire?, continueCall?, innermost?, Cluster.heed?, Cluster.step?,
        Cluster.expire?, htask, hframes, hpending]

namespace Lone

/-- A get is at a station or over. -/
theorem cases (h : s.Lone) (number : Nat) :
    (∃ index st, s.At number index st) ∨
      ∀ task, s.cluster.tasks[number]? = some task → task.Over := by
  by_cases hat : ∃ index st, s.At number index st
  · exact .inl hat
  · exact .inr fun task htask ↦ (h.gets number task htask).resolve_right hat

theorem recorded (h : s.Lone) (hat : s.At number index st) : Station.Recorded st.group := by
  obtain ⟨keys, goals, hsound⟩ := Cluster.Runs.keyed h.reached
  exact fun key flight hmem ↦ ((hsound.groups index st.group hat.group).records key flight hmem).1

/-- What a transition of a get leads to is again such a node. -/
theorem comes (h : s.Lone) (hat : s.At number index st) (hturns : st.Turns now node deed)
    (hreached : Reached (s.cluster.put number index deed))
    (hcomes : Comes s number index following deed) : following.Lone := by
  have hsame := hcomes.put
  obtain ⟨hcluster, hsources, hcalls⟩ := same_of_ungated hsame
  refine ⟨hcluster ▸ hreached, ?_, hcomes.shut, ?_, fun other task htask ↦ ?_, fun call hmem ↦ ?_⟩
  · obtain ⟨node, hnodes, hpick⟩ := h.alone
    exact ⟨node, hcluster ▸ hnodes, hpick⟩
  · rw [hsources, hcluster]
    simp [put, Cluster.put, h.sources]
  · rw [hcluster] at htask
    by_cases hne : other = number
    · subst hne
      rw [put_task hat.task] at htask
      obtain rfl := Option.some.inj htask
      cases hfate : deed.fate with
      | onward stage =>
          have hnext : st.next? deed = some
              { st with group := deed.group, source := deed.source, call := deed.call, stage } := by
            simp [Station.next?, hfate]
          exact .inr ⟨_, _, (hat.own hturns hnext).congr hsame⟩
      | ended | dropped => exact .inl ⟨rfl, rfl⟩
    · rw [put_task_of_ne hne] at htask
      rcases h.gets other task htask with hover | ⟨place, found, hfound⟩
      · exact .inl hover
      · exact .inr ⟨_, _, (hfound.beside hne).congr hsame⟩
  · have hsize : following.cluster.tasks.size = s.cluster.tasks.size := by
      rw [hcluster]
      exact Array.size_modify
    rw [hsize]
    rw [hcalls] at hmem
    rcases List.mem_append.1 hmem with hmem | hmem
    · obtain ⟨found, -, rfl⟩ : ∃ found, deed.call = some found ∧ (number, .load found) = call := by
        simpa using hmem
      exact (Array.getElem?_eq_some_iff.1 hat.task).1
    · exact h.calls call (List.mem_of_mem_filter hmem)

end Lone

/-! ## Turns -/

/-- The number of gets that are under way. -/
def pending (s : Simulation) : Nat :=
  s.cluster.tasks.toList.countP Task.pending

/-- A get that goes on is still under way, any other one is not. -/
theorem pending_put (h : s.At number index st) :
    (s.put number index deed).pending + 1 =
      s.pending + if (deed.fate.apply (st.task index)).pending then 1 else 0 := by
  have hcount := countP_modify (p := Task.pending)
    ((Array.getElem?_toList ..).trans h.task) deed.fate.apply
  rw [show (st.task index).pending = true from rfl, if_pos rfl] at hcount
  rw [show s.pending = s.cluster.tasks.toList.countP Task.pending from rfl, ← hcount]
  simp [pending, put, Cluster.put]

theorem pending_congr (h : following.ungated = s.ungated) : following.pending = s.pending := by
  rw [pending, (same_of_ungated h).1, pending]

namespace Comes

variable (h : Comes s number index following deed) (hat : s.At number index st)
include h hat

theorem pending_lt (hfate : ∀ stage, deed.fate ≠ .onward stage) :
    following.pending < s.pending := by
  have hput : (s.put number index deed).pending + 1 = _ := pending_put hat
  rw [pending_congr h.put]
  cases hdeed : deed.fate with
  | onward stage => exact absurd hdeed (hfate stage)
  | ended | dropped =>
      simp only [hdeed, Fate.apply, Task.pending, Station.task] at hput
      simp at hput
      omega

theorem pending_eq {stage : FrameStage} (hfate : deed.fate = .onward stage) :
    following.pending = s.pending := by
  have hput : (s.put number index deed).pending + 1 = _ := pending_put hat
  rw [pending_congr h.put]
  simpa [hfate, Fate.apply, Task.pending, Station.task] using hput

variable (hturns : st.Turns now node deed)
include hturns

/-- A get that goes on is at its station. -/
theorem onward {stage : FrameStage} (hfate : deed.fate = .onward stage) :
    st.next? deed = some
        { st with group := deed.group, source := deed.source, call := deed.call, stage } ∧
      following.At number index
        { st with group := deed.group, source := deed.source, call := deed.call, stage } := by
  have hnext : st.next? deed = some
      { st with group := deed.group, source := deed.source, call := deed.call, stage } := by
    simp [Station.next?, hfate]
  exact ⟨hnext, (hat.own hturns hnext).congr h.put⟩

/-- Where the get is after a transition, it went on to. -/
theorem next?_eq {place : Nat} {found : Station} (hfound : following.At number place found) :
    st.next? deed = some found := by
  obtain ⟨hcluster, -, -⟩ := same_of_ungated h.put
  cases hfate : deed.fate with
  | onward stage =>
      obtain ⟨hnext, hafter⟩ := h.onward hat hturns hfate
      rwa [(hafter.unique hfound).2]
  | ended | dropped =>
      have htask := hfound.task
      rw [hcluster, put_task hat.task, hfate] at htask
      cases congrArg Task.frames (Option.some.inj htask)

end Comes

/-- Whoever is at rest besides a get stays there. -/
def Undisturbed (s following : Simulation) (number : Nat) : Prop :=
  ∀ other, other ≠ number → s.stepTask? other = none → following.stepTask? other = none

/-- A get has had its turn: it is over, or the others are undisturbed. One that has its outcome is
over then. -/
structure Turned (s following : Simulation) (number : Nat) : Prop where
  rests : following.stepTask? number = none
  others : following.pending < s.pending ∨
    following.pending = s.pending ∧ Undisturbed s following number ∧
      ∀ index st outcome, s.At number index st → st.stage ≠ .answered outcome

namespace Lone

/-- A transition of a node is that of a get at its station. -/
theorem stepTask? (h : s.Lone) (hstep : s.stepTask? number = some following) :
    ∃ index st deed, s.At number index st ∧ st.step? s.cluster.now s.name = some deed ∧
      Comes s number index following deed ∧ following.Lone := by
  rcases h.cases number with ⟨index, st, hat⟩ | hover
  · have hrel := hat.stepTask? h.shut h.alone
    rw [hstep] at hrel
    obtain ⟨deed, hdeed, hcomes⟩ := exists_of_rel hrel
    exact ⟨index, st, deed, hat, hdeed, hcomes, h.comes hat
      (Station.step?_turns hat.fits hdeed) (hat.reached h.alone h.reached hdeed) hcomes⟩
  · rw [stepTask?_of_over hover] at hstep
    cases hstep

/-- A get at rest makes no transition. -/
theorem rests (h : s.Lone) (hat : s.At number index st) :
    s.stepTask? number = none ↔ st.Rests s.cluster.now := by
  have hstation : st.step? s.cluster.now s.name = none ↔ st.Rests s.cluster.now :=
    Station.step?_eq_none hat.fits
  rw [← hstation]
  exact eq_none_of_rel (hat.stepTask? h.shut h.alone)

/-- A transition that takes no flight down disturbs no get that is at rest. -/
theorem undisturbed (h : s.Lone) (hat : s.At number index st)
    (hcomes : Comes s number index following deed) (hfollowing : following.Lone)
    (haloft : Station.StaysAloft st.group deed.group) : Undisturbed s following number := by
  intro other hne hrests
  obtain ⟨hcluster, -, -⟩ := same_of_ungated hcomes.put
  rcases h.cases other with ⟨place, found, hfound⟩ | hover
  · rw [h.rests hfound] at hrests
    have hafter : following.At other place (found.beside (place == index) deed) :=
      (hfound.beside hne).congr hcomes.put
    rw [hfollowing.rests hafter, show following.cluster.now = s.cluster.now by rw [hcluster]; rfl]
    by_cases heq : place = index
    · subst heq
      have hgroup : found.group = st.group := Option.some.inj (hfound.group.symm.trans hat.group)
      simpa [Station.beside] using hrests.mono deed.source (hgroup ▸ haloft)
    · simpa [Station.beside, heq] using hrests
  · refine stepTask?_of_over fun task htask ↦ hover task ?_
    rwa [hcluster, put_task_of_ne hne] at htask

/-- A get that has its turn for as many transitions as it can make has had its turn. -/
theorem runTask (h : s.Lone) {limit : Nat}
    (hlimit : ∀ index st, s.At number index st → st.effort < limit) :
    (runTask limit s number).Lone ∧ Turned s (runTask limit s number) number := by
  -- on the transitions that are left: each costs some of the effort, so the bound holds after it
  induction limit generalizing s with
  | zero =>
      have hnot : ∀ index st, ¬s.At number index st := fun index st hat ↦
        Nat.not_lt_zero _ (hlimit index st hat)
      refine ⟨h, ?_, .inr ⟨rfl, fun _ _ ↦ id, fun index st _ hat ↦ absurd hat (hnot index st)⟩⟩
      exact stepTask?_of_over ((h.cases number).resolve_left fun ⟨index, st, hat⟩ ↦
        hnot index st hat)
  | succ limit ih =>
      rw [Simulation.runTask]
      cases hstep : s.stepTask? number with
      | none =>
          refine ⟨h, hstep, .inr ⟨rfl, fun _ _ ↦ id, fun index st outcome hat hstage ↦ ?_⟩⟩
          cases ((h.rests hat).1 hstep).waits with
          | flight _ hother | asleep _ _ _ hother | queued _ _ _ hother =>
              cases hstage.symm.trans hother
      | some following =>
          obtain ⟨index, st, deed, hat, hdeed, hcomes, hfollowing⟩ := h.stepTask? hstep
          have hturns : st.Turns s.cluster.now s.name deed :=
            Station.step?_turns hat.fits hdeed
          obtain ⟨hlone, hrests, hothers⟩ := ih hfollowing fun place found hfound ↦ by
            have hless := hturns.effort_lt (h.recorded hat) hat.fits
              (hcomes.next?_eq hat hturns hfound)
            exact Nat.lt_of_lt_of_le hless (Nat.le_of_lt_succ (hlimit index st hat))
          refine ⟨hlone, hrests, ?_⟩
          cases hfate : deed.fate with
          | ended | dropped =>
              -- the others may be disturbed now, for which one get less pays
              have hfewer := hcomes.pending_lt hat (by simp [hfate])
              rcases hothers with hless | ⟨hsame, -⟩
              · exact .inl (hless.trans hfewer)
              · exact .inl (hsame ▸ hfewer)
          | onward stage =>
              obtain ⟨hnext, hafter⟩ := hcomes.onward hat hturns hfate
              rw [hcomes.pending_eq hat hfate] at hothers
              refine hothers.imp_right fun ⟨hsame, hundisturbed, hunanswered⟩ ↦ ⟨hsame, ?_, ?_⟩
              · rcases hturns.quiet with hover | ⟨outcome, hother⟩ | haloft
                · exact absurd hfate (hover stage)
                · -- a get that has its outcome would be over by the end of its turn
                  obtain rfl := Fate.onward.inj (hfate.symm.trans hother)
                  exact absurd rfl (hunanswered _ _ outcome hafter)
                · have hfirst := h.undisturbed hat hcomes hfollowing haloft
                  exact fun other hne hrests ↦ hundisturbed other hne (hfirst other hne hrests)
              · intro place found outcome hfound hstage
                obtain ⟨-, rfl⟩ := hat.unique hfound
                exact hturns.of_answered hstage stage hfate

end Lone

/-! ## Rounds -/

/-- A get makes a transition. -/
def Advances (s following : Simulation) : Prop :=
  ∃ number, s.stepTask? number = some following

theorem runTask_steps (limit : Nat) (s : Simulation) (number : Nat) :
    Relation.ReflTransGen Advances s (runTask limit s number) := by
  induction limit generalizing s with
  | zero => exact .refl
  | succ limit ih =>
      rw [runTask]
      split
      · exact .refl
      · next following hstep => exact .head ⟨number, hstep⟩ (ih following)

theorem turns_steps (limit : Nat) (s : Simulation) (numbers : List Nat) :
    Relation.ReflTransGen Advances s (numbers.foldl (runTask limit) s) :=
  List.foldlRecOn numbers (runTask limit) .refl fun before hbefore number _ ↦
    hbefore.trans (runTask_steps limit before number)

theorem rounds_steps (limit : Nat) (s : Simulation) :
    Relation.ReflTransGen Advances s (rounds limit s) := by
  induction limit generalizing s with
  | zero => exact .refl
  | succ limit ih =>
      rw [rounds]
      split
      · exact .refl
      · exact (turns_steps s.runLimit s _).trans (ih s.round)

/-- What transitions of gets leave as it is. -/
structure Keeps (s following : Simulation) : Prop where
  size : following.cluster.tasks.size = s.cluster.tasks.size
  nodes : following.cluster.nodes = s.cluster.nodes
  groups : following.cluster.groups.map (fun group ↦ (group.name, group.settings)) =
    s.cluster.groups.map fun group ↦ (group.name, group.settings)

theorem Comes.keeps (h : Comes s number index following deed) (hat : s.At number index st)
    (hturns : st.Turns now node deed) : Keeps s following := by
  obtain ⟨hname, hsettings, -⟩ := hturns.own
  obtain ⟨hcluster, -, -⟩ := same_of_ungated h.put
  refine ⟨?_, ?_, ?_⟩ <;> rw [hcluster]
  · exact Array.size_modify
  · rfl
  · refine Array.map_setIfInBounds.trans (Cluster.setIfInBounds_same ?_)
    rw [Array.getElem?_map, hat.group, Option.map_some, hname, hsettings]

/-- No get can move. -/
def Rests (s : Simulation) : Prop :=
  ∀ number, s.stepTask? number = none

/-- A get makes no more than these transitions in a row. -/
abbrev turnLimit : Nat := 10

theorem turnLimit_le (s : Simulation) : turnLimit ≤ s.runLimit := by
  rw [runLimit, turnLimit]
  omega

theorem runTask_of_rests (h : s.stepTask? number = none) (limit : Nat) :
    runTask limit s number = s := by
  cases limit with
  | zero => rfl
  | succ limit => rw [runTask, h]

theorem runTask_add (limit more : Nat) (s : Simulation) (number : Nat) :
    runTask (limit + more) s number = runTask more (runTask limit s number) number := by
  induction limit generalizing s with
  | zero => rw [Nat.zero_add, runTask]
  | succ limit ih =>
      rw [Nat.succ_add, runTask, runTask]
      cases hstep : s.stepTask? number with
      | none => exact (runTask_of_rests hstep more).symm
      | some following => exact ih following

namespace Lone

variable {limit : Nat}

/-- What transitions lead to from such a node. -/
theorem steps (h : s.Lone) (hsteps : Relation.ReflTransGen Advances s following) :
    following.Lone ∧ Keeps s following := by
  induction hsteps with
  | refl => exact ⟨h, rfl, rfl, rfl⟩
  | tail _ hstep ih =>
      obtain ⟨hbefore, hsize, hnodes, hgroups⟩ := ih
      obtain ⟨number, hstep⟩ := hstep
      obtain ⟨index, st, deed, hat, hdeed, hcomes, hfollowing⟩ := hbefore.stepTask? hstep
      obtain ⟨hsize', hnodes', hgroups'⟩ :=
        hcomes.keeps hat (Station.step?_turns hat.fits hdeed)
      exact ⟨hfollowing, hsize'.trans hsize, hnodes'.trans hnodes, hgroups'.trans hgroups⟩

/-- Each get has had its turn after as many transitions as a turn may have. -/
theorem turn (h : s.Lone) (number : Nat) :
    (Simulation.runTask turnLimit s number).Lone ∧
      Turned s (Simulation.runTask turnLimit s number) number :=
  h.runTask fun _ st _ ↦ Nat.lt_succ_of_le st.effort_le

/-- A limit that covers a turn makes no difference. -/
theorem runTask_eq (h : s.Lone) (number : Nat) (hlimit : turnLimit ≤ limit) :
    Simulation.runTask limit s number = Simulation.runTask turnLimit s number := by
  obtain ⟨more, rfl⟩ := Nat.exists_eq_add_of_le hlimit
  rw [runTask_add, runTask_of_rests (h.turn number).2.rests]

/-- A round gives each get its turn. -/
theorem round_eq (h : s.Lone) :
    s.round = (List.range s.cluster.tasks.size).foldl (Simulation.runTask turnLimit) s := by
  rw [round]
  generalize List.range s.cluster.tasks.size = numbers
  -- the limit is that of the first state all along, so it stays while the state goes on
  have hlimit := s.turnLimit_le
  generalize s.runLimit = limit at hlimit
  induction numbers generalizing s with
  | nil => rfl
  | cons number numbers ih =>
      rw [List.foldl_cons, List.foldl_cons, h.runTask_eq number hlimit]
      exact ih (h.turn number).1

/-- What the gets before a number are like after their turns in a round. -/
theorem turns (h : s.Lone) (count : Nat) :
    let after := (List.range count).foldl (Simulation.runTask turnLimit) s
    after.Lone ∧ (after.pending < s.pending ∨
      after.pending = s.pending ∧ ∀ number < count, after.stepTask? number = none) := by
  induction count with
  | zero => exact ⟨h, .inr ⟨rfl, fun _ hlt ↦ absurd hlt (Nat.not_lt_zero _)⟩⟩
  | succ count ih =>
      obtain ⟨hbefore, hprogress⟩ := ih
      simp only [List.range_succ, List.foldl_append, List.foldl_cons, List.foldl_nil]
      generalize (List.range count).foldl (Simulation.runTask turnLimit) s = before at *
      obtain ⟨hafter, hrests, hothers⟩ := hbefore.turn count
      refine ⟨hafter, ?_⟩
      rcases hothers with hfewer | ⟨hsame, hundisturbed, -⟩
      · rcases hprogress with hless | ⟨heq, -⟩
        · exact .inl (hfewer.trans hless)
        · exact .inl (heq ▸ hfewer)
      · rw [hsame]
        refine hprogress.imp_right fun ⟨heq, hearlier⟩ ↦ ⟨heq, fun number hlt ↦ ?_⟩
        rcases Nat.lt_succ_iff_lt_or_eq.1 hlt with hlt | rfl
        · exact hundisturbed number (Nat.ne_of_lt hlt) (hearlier number hlt)
        · exact hrests

theorem round (h : s.Lone) : s.round.Lone :=
  (h.steps (turns_steps s.runLimit s _)).1

/-- A round ends a get or leaves all of them at rest. -/
theorem round_turns (h : s.Lone) : s.round.pending < s.pending ∨ s.round.Rests := by
  have hsize := (h.steps (turns_steps s.runLimit s (List.range s.cluster.tasks.size))).2.size
  rw [← Simulation.round, h.round_eq] at hsize
  rw [h.round_eq]
  refine (h.turns s.cluster.tasks.size).2.imp_right fun ⟨_, hearlier⟩ number ↦ ?_
  by_cases hlt : number < s.cluster.tasks.size
  · exact hearlier number hlt
  · refine stepTask?_of_over fun task htask ↦ absurd (Array.getElem?_eq_some_iff.1 htask).1 ?_
    rwa [hsize]

end Lone

/-! ## Settling -/

theorem round_of_movable (h : s.movable = []) : s.round = s := by
  have hnone : ∀ number ∈ List.range s.cluster.tasks.size, s.stepTask? number = none :=
    fun number hmem ↦ Option.not_isSome_iff_eq_none.1 (List.filter_eq_nil_iff.1 h number hmem)
  rw [round]
  generalize List.range s.cluster.tasks.size = numbers at hnone
  induction numbers with
  | nil => rfl
  | cons number numbers ih =>
      rw [List.foldl_cons, runTask_of_rests (hnone number List.mem_cons_self)]
      exact ih fun other hmem ↦ hnone other (List.mem_cons_of_mem _ hmem)

theorem rounds_eq_iterate (limit : Nat) (s : Simulation) : rounds limit s = round^[limit] s := by
  induction limit generalizing s with
  | zero => rfl
  | succ limit ih =>
      rw [rounds]
      split
      · next hnone =>
        rw [Function.iterate_fixed (round_of_movable (List.isEmpty_iff.1 hnone))]
      · rw [ih, Function.iterate_succ_apply]

theorem Rests.movable (h : s.Rests) : s.movable = [] :=
  List.filter_eq_nil_iff.2 fun number _ ↦ by simp [h number]

/-- Gets at rest stay there, however many rounds there are. -/
theorem Rests.iterate (h : s.Rests) (limit : Nat) : round^[limit] s = s :=
  Function.iterate_fixed (round_of_movable h.movable) limit

theorem Rests.settle (h : s.Rests) : s.settle = s := by
  rw [Simulation.settle, rounds_eq_iterate, h.iterate]

/-- No more rounds are needed than there are gets under way, and one more. -/
theorem Lone.iterate_rests (h : s.Lone) {limit : Nat} (hlimit : s.pending < limit) :
    (Simulation.round^[limit] s).Rests := by
  induction limit generalizing s with
  | zero => exact absurd hlimit (Nat.not_lt_zero _)
  | succ limit ih =>
      rw [Function.iterate_succ_apply]
      -- a round that ends a get uses up one of the limit, and any other one is the last that counts
      rcases h.round_turns with hfewer | hrests
      · exact ih h.round (by omega)
      · rwa [hrests.iterate]

/-- Settling leaves gets at rest, and further rounds make no difference. -/
theorem Lone.settle_eq (h : s.Lone) {limit : Nat} (hlimit : s.cluster.tasks.size < limit) :
    s.settle = Simulation.round^[limit] s ∧ s.settle.Rests := by
  have hpending : s.pending ≤ s.cluster.tasks.size := List.countP_le_length
  have hrests : (Simulation.round^[s.cluster.tasks.size + 1] s).Rests :=
    h.iterate_rests (Nat.lt_succ_of_le hpending)
  have henough : ∀ limit, s.cluster.tasks.size + 1 ≤ limit →
      Simulation.round^[limit] s = Simulation.round^[s.cluster.tasks.size + 1] s := by
    intro limit hle
    obtain ⟨more, rfl⟩ := Nat.exists_eq_add_of_le' hle
    rw [Function.iterate_add_apply, hrests.iterate]
  have hbound : s.cluster.tasks.size + 1 ≤
      (s.cluster.tasks.size + 1) * (s.cluster.groups.size + 2) + 2 :=
    Nat.le_succ_of_le (Nat.le_succ_of_le (Nat.le_mul_of_pos_right _ (Nat.succ_pos _)))
  rw [settle, rounds_eq_iterate, henough _ hbound, henough limit hlimit]
  exact ⟨rfl, hrests⟩

theorem Lone.settle_rests (h : s.Lone) : s.settle.Rests :=
  (h.settle_eq (Nat.lt_succ_self _)).2

end Simulation

end ReadThrough
