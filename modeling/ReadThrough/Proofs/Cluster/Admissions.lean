import ReadThrough.Proofs.Cluster.Contents
import ReadThrough.Proofs.Cluster.Course
import ReadThrough.Proofs.Cluster.Workers
import ReadThrough.Proofs.Group.Replies

/-!
# Admission over a run

The gate of a group decides on every value that the group fetches, and on nothing else
(`act?_decides`). So after a run it has counted the values that were fetched since the group was
made (`Course.counts`).
-/

namespace ReadThrough

/-- A group has the name and the settings that another one has, and its gate has decided on one more
value if one was fetched. -/
structure Group.Decides (after group : Group) (fetched : Bool) : Prop where
  name : after.name = group.name
  settings : after.settings = group.settings
  gate : after.gate = if fetched then group.gate.decideNext.2 else group.gate

theorem Group.Alike.decides {after group : Group} (h : after.Alike group) :
    after.Decides group false :=
  ⟨h.name, h.settings, h.gate⟩

theorem Group.takeFetched_decides (group : Group) (key : String) (now : Millis)
    (answer : Outcome) : (group.takeFetched key now answer).2.Decides group answer.isOk := by
  have hkept := group.takeFetched_kept key now answer
  exact ⟨hkept.name, hkept.settings, (group.takeFetched_offers key now answer).2⟩

theorem Group.takeLoaded_decides (group : Group) (key : String) (now : Millis)
    (answer : LoadAnswer) : (group.takeLoaded key now answer).2.Decides group false := by
  have hkept := group.takeLoaded_kept key now answer
  exact ⟨hkept.name, hkept.settings, group.takeLoaded_gate key now answer⟩

theorem Group.consult_decides (group : Group) (key : String) (now : Millis) (cancelled : Bool) :
    (group.consult key now cancelled).2.Decides group false := by
  have hkept := group.consult_kept key now cancelled
  refine ⟨hkept.name, hkept.settings, ?_⟩
  unfold consult
  dsimp only
  split
  · rfl
  · split
    · rfl
    · split <;> rfl

namespace Cluster

/-- Whether an action makes a group take in a value that it fetched. -/
def fetchesValue (c : Cluster) (index : Nat) (action : Action) : Bool :=
  (c.fill? action).any fun fill ↦ fill.group = index && fill.tier = .hot && fill.outcome.isOk

/-- How many values a group has fetched. -/
def fetchedValues (past : List Moment) (index : Nat) : Nat :=
  past.countP fun moment ↦ moment.before.fetchesValue index moment.action

variable {c following : Cluster} {action : Action} {number height index : Nat} {past : List Moment}
  {frame : Frame} {group after : Group} {stage : FrameStage}

/-! ## One action -/

/-- A frame that works takes in an answer for its own group, or none. The gate of the group decides
on a value that was fetched. -/
theorem Works.feeds (h : Works c action number height frame group stage after) :
    (c.fill? action = none ∧ after.Decides group false) ∨
      ∃ tier outcome, c.fill? action = some ⟨frame.group, frame.key, tier, outcome⟩ ∧
        after.Decides group (tier = .hot && outcome.isOk) := by
  cases h with
  | turned task outer _ _ htask hframes hheight hturn =>
      have hstep (hbusy : ∀ outcome, frame.stage ≠ .answered outcome) :
          c.fill? (.step number) = none := fill?_step htask hframes hbusy
      cases hturn with
      | answered outcome _ hstage hconsult | missed _ hstage hconsult =>
          have hdecides :=
            group.consult_decides frame.key c.now (frame.hearsToken && task.cancelled)
          rw [hconsult] at hdecides
          exact .inl ⟨hstep (by simp [hstage]), hdecides⟩
      | joined _ hcontends | led hcontends =>
          refine .inl ⟨hstep ?_, rfl, rfl, rfl⟩
          rcases hcontends with hstage | ⟨_, hstage, -⟩ <;> simp [hstage]
      | took _ _ hstage | found _ _ _ hstage | loads _ _ hstage | fetches _ _ _ hstage
      | landed _ _ hstage => exact .inl ⟨hstep (by simp [hstage]), rfl, rfl, rfl⟩
      | refused flight node peer sharesToken fault hstage =>
          exact .inl ⟨hstep (by simp [hstage]), group.takeFetched_decides _ _ (.error fault)⟩
      | loaded flight answer =>
          refine .inr ⟨.main, LoadAnswer.outcome frame.key answer, ?_,
            group.takeLoaded_decides frame.key c.now answer⟩
          simp [fill?, htask, hframes]
      | fetched flight peer answer =>
          refine .inr ⟨.hot, answer, ?_, group.takeFetched_decides frame.key c.now answer⟩
          simp [fill?, htask, hframes]
  | forwarded outer flight home peer sharesToken node target _ haction hmisses hheight hstage _ _ _
      halike =>
      obtain ⟨task, htask, hframes⟩ := hmisses.task
      subst haction
      exact .inl ⟨fill?_step htask hframes (by simp [hstage]), halike.decides⟩
  | handed task inner outer outcome flight peer haction htask hframes hheight hstage hparent =>
      subst haction
      refine .inr ⟨.hot, outcome, ?_, group.takeFetched_decides frame.key c.now outcome⟩
      simp [fill?, htask, hframes, hstage, hparent]
  | brokeOff depth reason task flight peer left haction _ _ _ _ halike =>
      subst haction
      obtain ⟨hname, hsettings, hgate⟩ :=
        left.takeFetched_decides frame.key c.now (.error (.transportFailure peer reason))
      exact .inl ⟨rfl, hname.trans halike.name, hsettings.trans halike.settings,
        hgate.trans halike.gate⟩
  | heeded depth _ haction _ halike =>
      subst haction
      exact .inl ⟨rfl, halike.decides⟩

/-- What an action takes in is fetched for a group if it is for that and for its hot tier. -/
theorem fetchesValue_of_fill? {fill : Fill} (h : c.fill? action = some fill) :
    c.fetchesValue index action =
      (decide (fill.group = index) && decide (fill.tier = .hot) && fill.outcome.isOk) := by
  rw [fetchesValue, h]
  rfl

theorem fetchesValue_of_none (h : c.fill? action = none) : c.fetchesValue index action = false := by
  rw [fetchesValue, h]
  rfl

/-- What an action takes in for other groups is not fetched for this one. -/
theorem fetchesValue_of_ne (h : ∀ fill, c.fill? action = some fill → fill.group ≠ index) :
    c.fetchesValue index action = false := by
  cases hfill : c.fill? action with
  | none => exact fetchesValue_of_none hfill
  | some fill => rw [fetchesValue_of_fill? hfill, decide_eq_false (h fill hfill)]; rfl

/-- What an action does to one group, as far as values that it fetches are concerned. -/
theorem act?_decides (hact : c.act? action = some following) (hgrouped : c.Grouped)
    (hgroup : c.groups[index]? = some group) :
    ∃ after, following.groups[index]? = some after ∧
      after.Decides group (c.fetchesValue index action) := by
  by_cases hpurges : action.purges? = some index
  · cases action with
    | remove other key =>
        cases hpurges
        simp only [act?, hgroup, bind, Option.bind_some, Option.some.injEq] at hact
        subst hact
        refine ⟨(group.remove key).2, ?_, (group.remove_kept key).name,
          (group.remove_kept key).settings, rfl⟩
        exact Array.getElem?_setIfInBounds_self_of_lt (Array.getElem?_eq_some_iff.1 hgroup).1
    | clear other =>
        cases hpurges
        simp only [act?, hgroup, bind, Option.bind_some, Option.some.injEq] at hact
        subst hact
        refine ⟨group.clear, ?_, rfl, rfl, rfl⟩
        exact Array.getElem?_setIfInBounds_self_of_lt (Array.getElem?_eq_some_iff.1 hgroup).1
    | _ => cases hpurges
  rcases (act?_move hact).worker hgrouped with ⟨number, height, frame, found, stage, after, hat,
    hfound, hworks, hnext, hafter, hspares⟩ | ⟨hspares, hunfed⟩
  · have hfeeds := hworks.feeds
    by_cases hon : frame.group = index
    · subst hon
      cases hgroup.symm.trans hfound
      refine ⟨after, hafter, ?_⟩
      rcases hfeeds with ⟨hnone, hdecides⟩ | ⟨tier, outcome, hfill, hdecides⟩
      · rwa [fetchesValue_of_none hnone]
      · rw [fetchesValue_of_fill? hfill]
        simpa using hdecides
    · obtain ⟨after, hafter, halike⟩ := hspares.groups index group hgroup (Ne.symm hon)
      refine ⟨after, hafter, ?_⟩
      rw [fetchesValue_of_ne]
      · exact halike.decides
      · intro fill hfill
        rcases hfeeds with ⟨hnone, -⟩ | ⟨tier, outcome, hsome, -⟩
        · cases hnone.symm.trans hfill
        · cases hsome.symm.trans hfill
          exact hon
  · obtain ⟨after, hafter, halike⟩ := hspares.groups index group hgroup hpurges
    refine ⟨after, hafter, ?_⟩
    rw [fetchesValue_of_ne]
    · exact halike.decides
    · rintro fill hfill rfl
      cases (hunfed fill hfill).symm.trans hgroup

/-- What is fetched is fetched for a group that is there. -/
theorem fetchesValue_of_missing (hact : c.act? action = some following) (hgrouped : c.Grouped)
    (hnone : c.groups[index]? = none) : c.fetchesValue index action = false := by
  refine fetchesValue_of_ne ?_
  rintro fill hfill rfl
  obtain ⟨number, frame, hframe, -, hindex, -⟩ := calls_of_fill? hact hfill
  obtain ⟨group, hgroup⟩ := hgrouped number frame hframe
  rw [hindex, hnone] at hgroup
  cases hgroup

/-! ## A whole run -/

/-- A group that is not there yet has fetched nothing. -/
theorem Course.fetchedValues_eq_zero (course : Course empty c past)
    (hnone : c.groups[index]? = none) : fetchedValues past index = 0 := by
  induction course with
  | here => rfl
  | @next middle following past action course hact ih =>
      have hbefore : middle.groups[index]? = none := by
        rw [Option.eq_none_iff_forall_ne_some]
        intro group hgroup
        obtain ⟨after, hafter, -⟩ := act?_decides hact course.runs.grouped hgroup
        cases hnone.symm.trans hafter
      rw [fetchedValues, countP_cons_toNat,
        fetchesValue_of_missing hact course.runs.grouped hbefore]
      exact ih hbefore

/-- After every run, the gate of a group follows the rule that is set for it, and has counted the
values that the group fetched. -/
theorem Course.counts (course : Course empty c past) (hgroup : c.groups[index]? = some group) :
    group.gate.Counts group.settings.hotAdmission (fetchedValues past index) := by
  induction course generalizing group with
  | here => exact nomatch hgroup
  | @next middle following past action course hact ih =>
      rw [fetchedValues, countP_cons_toNat]
      cases hbefore : middle.groups[index]? with
      | none =>
          rw [fetchesValue_of_missing hact course.runs.grouped hbefore]
          rw [show past.countP _ = 0 from course.fetchedValues_eq_zero hbefore]
          cases (act?_move hact).restocks hgroup with
          | made name settings heq => exact heq ▸ AdmissionGate.counts_ofRule settings.hotAdmission
          | kept before hold | filled before fill hold => cases hbefore.symm.trans hold
      | some before =>
          obtain ⟨after, hafter, -, hsettings, hgate⟩ :=
            act?_decides hact course.runs.grouped hbefore
          cases hgroup.symm.trans hafter
          rw [hsettings, hgate]
          cases middle.fetchesValue index action with
          | false => exact ih hbefore
          | true => exact (ih hbefore).next

end Cluster

end ReadThrough
