import ReadThrough.Proofs.Cluster.Frames
import ReadThrough.Proofs.Cluster.Leaders
import ReadThrough.Proofs.Group.Contents

/-!
# What the groups of a cluster hold

A move adds something to a group only when the leader of a flight takes in an answer, and that
leader is done with its work then (`Move.restocks`). A frame makes a call only if it made one before
or just found nothing in the tiers (`Move.mayCall`). From both, and from there being one leader for
each key, `Orderly` follows: while a call has no answer, no tier of its group holds anything live
for its key.
-/

namespace ReadThrough

/-- A frame leads a flight, and its work has not come to an outcome. -/
def Frame.AtWork (frame : Frame) : Prop :=
  ∃ flight errand, frame.stage = .leading flight errand ∧ ∀ outcome, errand ≠ .done outcome

theorem Frame.Calls.atWork {frame : Frame} (h : frame.Calls) : frame.AtWork := by
  obtain ⟨flight, hloading | ⟨peer, hfetching⟩⟩ := h
  · exact ⟨flight, .loading, hloading, fun _ heq ↦ nomatch heq⟩
  · exact ⟨flight, .fetching peer, hfetching, fun _ heq ↦ nomatch heq⟩

namespace Cluster

/-- The leader of a flight for a key is done with its work. -/
def Concludes (c : Cluster) (index : Nat) (key : String) : Prop :=
  ∃ number frame flight outcome, c.HasFrame number frame ∧ frame.group = index ∧
    frame.key = key ∧ frame.stage = .leading flight (.done outcome)

/-- What a move does to a group: it makes it, leaves no more in it than there was, or makes it
take in an answer, the leader being done then. -/
inductive Restocks (c : Cluster) (action : Action) (following : Cluster) (index : Nat)
    (after : Group) : Prop where
  | made (name : String) (settings : GroupSettings) :
      after = .create name settings → Restocks c action following index after
  | kept (group : Group) :
      c.groups[index]? = some group → after.Less group → Restocks c action following index after
  | filled (group : Group) (fill : Fill) :
      c.groups[index]? = some group → c.fill? action = some fill → fill.group = index →
      after.Takes group fill.key fill.tier fill.outcome → following.Concludes index fill.key →
      Restocks c action following index after

variable {c following : Cluster} {action : Action} {number index : Nat}

/-- A frame that may make a call is at work. -/
theorem MayCall.atWork {frame : Frame} {group : Group} (h : c.MayCall number frame group) :
    frame.AtWork := by
  rcases h.stage with hcalls | ⟨⟨flight, hstage⟩, -⟩
  · exact hcalls.atWork
  · exact ⟨flight, .recheck, hstage, fun _ heq ↦ nomatch heq⟩

/-! ## What a move adds -/

/-- Groups that are not put back are as before. -/
theorem restocks_setGroup {other : Nat} {new after : Group}
    (hgroups : following.groups = c.groups.setIfInBounds other new)
    (hnew : Restocks c action following other new)
    (hafter : following.groups[index]? = some after) :
    Restocks c action following index after := by
  rw [hgroups, Array.getElem?_setIfInBounds] at hafter
  split at hafter
  · next heq =>
    subst heq
    split at hafter
    · cases hafter
      exact hnew
    · cases hafter
  · exact .kept after hafter (Group.less_of_eq rfl rfl)

/-- Abandoning frames leaves in the groups what there was. -/
theorem restocks_abandon {frames : List Frame} {after : Group}
    (hafter : (c.abandon frames).groups[index]? = some after) :
    Restocks c action following index after := by
  obtain ⟨group, flights, hgroup, rfl⟩ := group_of_abandon hafter
  exact .kept group hgroup (Group.less_of_eq rfl rfl)

/-- The answer of a peer ends the work of a leader, or is a fault that leaves nothing. -/
theorem takeFetched_done (group : Group) (key : String) (now : Millis) (answer : Outcome) :
    (∃ outcome, (group.takeFetched key now answer).1 = .done outcome) ∨
      (group.takeFetched key now answer).2.Less group := by
  cases answer with
  | ok value => exact .inl ⟨_, rfl⟩
  | error fault =>
      by_cases hfound : fault.isNotFound = false
      · exact .inr ((group.takeFetched_takes key now (.error fault)).less hfound)
      · cases fault with
        | notFound absent => exact .inl ⟨_, rfl⟩
        | _ => exact absurd rfl hfound

/-- A frame that took in the answer of a peer is done, or nothing is added. -/
theorem restocks_fetched {frame : Frame} {outer : List Frame} {group : Group}
    (hgroup : c.groups[frame.group]? = some group) {answer : Outcome} {task : Task}
    (hfill : c.fill? action = some ⟨frame.group, frame.key, .hot, answer⟩) {flight : Nat}
    (htask : c.tasks[number]? = some task)
    (hreframes : c.Reframes number following
      ({ frame with
          stage := .leading flight (group.takeFetched frame.key c.now answer).1.errand } ::
        outer)) :
    Restocks c action following frame.group (group.takeFetched frame.key c.now answer).2 := by
  rcases takeFetched_done group frame.key c.now answer with ⟨outcome, hdone⟩ | hless
  · refine .filled group _ hgroup hfill rfl (group.takeFetched_takes frame.key c.now answer) ?_
    refine ⟨number, _, flight, outcome, ⟨_, hreframes.getElem? htask, List.mem_cons_self⟩, rfl, rfl,
      ?_⟩
    rw [hdone]
    rfl
  · exact .kept group hgroup hless

/-- What a turn leaves in the group of its frame. -/
theorem Turn.restocks {task : Task} {frame : Frame} {outer : List Frame} {group after : Group}
    {stage : FrameStage} (htask : c.tasks[number]? = some task)
    (hframes : task.frames = frame :: outer) (hgroup : c.groups[frame.group]? = some group)
    (hreframes : c.Reframes number following ({ frame with stage } :: outer))
    (turn : Turn c number task frame group action stage after) :
    Restocks c action following frame.group after := by
  cases turn with
  | answered outcome after hstage hconsult =>
      have hless := group.consult_less frame.key c.now (frame.hearsToken && task.cancelled)
      rw [hconsult] at hless
      exact .kept group hgroup hless
  | missed after hstage hconsult =>
      have hless := group.consult_less frame.key c.now (frame.hearsToken && task.cancelled)
      rw [hconsult] at hless
      exact .kept group hgroup hless
  | refused flight node peer sharesToken fault hstage hpeek hnode hpick hcarrier hroute =>
      have htakes := group.takeFetched_takes frame.key c.now (.error fault)
      exact .kept group hgroup (htakes.less (route_own hroute).1)
  | loaded flight answer hstage =>
      have hfill : c.fill? (.answerLoad number answer) =
          some ⟨frame.group, frame.key, .main, LoadAnswer.outcome frame.key answer⟩ := by
        simp [fill?, htask, hframes]
      exact .filled group _ hgroup hfill rfl (group.takeLoaded_takes frame.key c.now answer)
        ⟨number, _, flight, _, ⟨_, hreframes.getElem? htask, List.mem_cons_self⟩, rfl, rfl, rfl⟩
  | fetched flight peer answer hstage =>
      exact restocks_fetched hgroup (by simp [fill?, htask, hframes]) htask hreframes
  | joined | led | took | found | loads | fetches | landed =>
      exact .kept group hgroup (Group.less_of_eq rfl rfl)

/-- What a move leaves in a group. -/
theorem Move.restocks (move : Move c action following) {after : Group}
    (hafter : following.groups[index]? = some after) :
    Restocks c action following index after := by
  have hsame : ∀ {groups : Array Group}, groups = c.groups → groups[index]? = some after →
      Restocks c action following index after :=
    fun heq h ↦ .kept after (heq ▸ h) (Group.less_of_eq rfl rfl)
  cases move with
  | turned number task frame outer group _ stage new following htask hframes hgroup hturn
      hreframes hgroups =>
      exact restocks_setGroup hgroups (hturn.restocks htask hframes hgroup hreframes) hafter
  | forwarded number task frame outer group served flight home peer sharesToken node target
      following htask hframes hgroup hstage hpeek hhome hpick hcarrier hroute hserved hreframes
      hgroups =>
      exact restocks_setGroup hgroups (.kept served hserved (Group.less_of_eq rfl rfl))
        hafter
  | handed number task frame parent outer group outcome flight peer following htask hframes
      hstage hparent hgroup hreframes hgroups =>
      refine restocks_setGroup hgroups
        (restocks_fetched hgroup ?_ htask hreframes) hafter
      simp [fill?, htask, hframes, hstage, hparent]
  | popped number task frame outer outcome following htask hframes hstage hreframes hgroups =>
      exact hsame hgroups hafter
  | finished number task frame outcome following htask hframes hstage hretasks hgroups =>
      exact hsame hgroups hafter
  | heeded number depth task frame following htask hframe hcancelled hhears hawaits hreframes
      hgroups => exact restocks_abandon (hgroups ▸ hafter)
  | brokeOff number depth reason task frame flight peer group following htask hframe hstage hgroup
      hreframes hgroups =>
      rw [hgroups, Array.getElem?_setIfInBounds] at hafter
      split at hafter
      · next heq =>
        subst heq
        split at hafter
        · cases hafter
          obtain ⟨before, flights, hbefore, rfl⟩ := group_of_abandon hgroup
          have htakes := Group.takeFetched_takes { before with flights } frame.key c.now
            (.error (.transportFailure peer reason))
          exact .kept before hbefore ((htakes.less rfl).congr rfl rfl)
        · cases hafter
      · exact restocks_abandon hafter
  | expired number task deadline following htask hpending hdeadline hdue hretasks hgroups =>
      exact restocks_abandon (hgroups ▸ hafter)
  | dropped number task following htask hpending hretasks hgroups =>
      exact restocks_abandon (hgroups ▸ hafter)
  | requested node method path name key other group deadline hgroup =>
      exact restocks_setGroup rfl
        (.kept group hgroup (Group.less_of_eq rfl rfl)) hafter
  | removed other key group hgroup =>
      exact restocks_setGroup rfl (.kept group hgroup (group.remove_less key)) hafter
  | cleared other group hgroup =>
      exact restocks_setGroup rfl (.kept group hgroup group.clear_less) hafter
  | created node name settings =>
      rcases cases_push hafter with rfl | hold
      · exact .made name settings rfl
      · exact hsame rfl hold
  | stayed _ _ hgroups htasks hnodes => exact hsame hgroups hafter
  | fired | asked | responded | added | rewired => exact hsame rfl hafter

/-! ## Who makes a call -/

/-- A turn makes a frame wait for a call only if it did before, or found nothing in the tiers. -/
theorem Turn.mayCall {task : Task} {frame : Frame} {group after : Group} {stage : FrameStage}
    (turn : Turn c number task frame group action stage after)
    (hcalls : ({ frame with stage } : Frame).Calls) :
    frame.Calls ∨ (∃ flight, frame.stage = .leading flight .recheck) ∧
      group.cache.peek frame.key c.now = none := by
  obtain ⟨led, hloading | ⟨peer, hfetching⟩⟩ := hcalls
  · cases turn with
    | loads flight node hstage hpeek => exact .inr ⟨⟨flight, hstage⟩, hpeek⟩
    | refused flight node peer sharesToken fault hstage hpeek =>
        exact .inr ⟨⟨flight, hstage⟩, hpeek⟩
    | fetched flight peer answer hstage => exact .inl ⟨flight, .inr ⟨peer, hstage⟩⟩
    | _ => cases hloading
  · cases turn with
    | fetches flight node peer hstage hpeek => exact .inr ⟨⟨flight, hstage⟩, hpeek⟩
    | refused flight node peer sharesToken fault hstage hpeek =>
        exact .inr ⟨⟨flight, hstage⟩, hpeek⟩
    | fetched flight peer answer hstage => exact .inl ⟨flight, .inr ⟨peer, hstage⟩⟩
    | _ => cases hfetching

/-- A frame that waits for a call after a move waited for one before, or found nothing in the
tiers. -/
theorem Move.mayCall (h : Led c) (move : Move c action following) {frame : Frame}
    (hframe : following.HasFrame number frame) (hcalls : frame.Calls) :
    ∃ before group, c.MayCall number before group ∧ before.group = frame.group ∧
      before.key = frame.key := by
  have hgroup : ∀ {before : Frame}, c.HasFrame number before → before.Calls →
      ∃ group, c.MayCall number before group := by
    rintro before ⟨task, htask, hmem⟩ hcalls
    obtain ⟨flight, errand, hstage, -⟩ := hcalls.atWork
    obtain ⟨group, hgroup⟩ := h.exists_group htask hmem hstage
    exact ⟨group, ⟨task, htask, hmem⟩, hgroup, .inl hcalls⟩
  rcases move.frames hframe with hold | hasked | ⟨before, stage, hbefore, rfl, hrestages⟩
  · obtain ⟨group, hmay⟩ := hgroup hold hcalls
    exact ⟨frame, group, hmay, rfl, rfl⟩
  · obtain ⟨flight, errand, hstage, -⟩ := hcalls.atWork
    cases hasked.symm.trans hstage
  · suffices hmay : ∃ group, c.MayCall number before group by
      obtain ⟨group, hmay⟩ := hmay
      exact ⟨before, group, hmay, rfl, rfl⟩
    cases hrestages with
    | turned task group after _ htask hhead hserved hturn =>
        rcases hturn.mayCall hcalls with hbefore' | hmiss
        · exact hgroup hbefore hbefore'
        · exact ⟨group, hbefore, hserved, .inr hmiss⟩
    | forwarded group flight peer hserved hstage hpeek =>
        exact ⟨group, hbefore, hserved, .inr ⟨⟨flight, hstage⟩, hpeek⟩⟩
    | fetched flight peer taken hstage =>
        exact hgroup hbefore ⟨flight, .inr ⟨peer, hstage⟩⟩
    | heeded =>
        obtain ⟨flight, errand, hstage, -⟩ := hcalls.atWork
        cases hstage

/-! ## Order -/

/-- What holds of every cluster that a run leads to: there is one leader for each key, the caches
count right, and where a call has no answer yet, no tier holds anything live for its key. -/
structure Orderly (c : Cluster) : Prop where
  led : Led c
  tidy : ∀ (index : Nat) (group : Group), c.groups[index]? = some group → group.Tidy
  quiet : ∀ (number : Nat) (frame : Frame) (group : Group), c.HasFrame number frame →
    frame.Calls → c.groups[frame.group]? = some group →
    ∀ tier value, ¬group.cache.Live tier frame.key value c.now

theorem orderly_empty : Orderly empty :=
  ⟨led_empty, by simp [empty], by simp [HasFrame, empty]⟩

/-- A frame may make a call only if no tier holds anything live for its key. -/
theorem Orderly.not_live (h : Orderly c) {frame : Frame} {group : Group}
    (hmay : c.MayCall number frame group) (tier : Tier) (value : Value) :
    ¬group.cache.Live tier frame.key value c.now := by
  rcases hmay.stage with hcalls | ⟨-, hpeek⟩
  · exact h.quiet number frame group hmay.mem hcalls hmay.served tier value
  · have htidy := h.tidy frame.group group hmay.served
    exact Tiered.not_live_of_peek htidy.sound htidy.within hpeek tier value

/-- An answer for a key comes only where nothing is live for it. -/
theorem Orderly.not_live_of_fill? (h : Orderly c) (hact : c.act? action = some following)
    {fill : Fill} (hfill : c.fill? action = some fill) {group : Group}
    (hgroup : c.groups[fill.group]? = some group) (tier : Tier) (value : Value) :
    ¬group.cache.Live tier fill.key value c.now := by
  obtain ⟨number, frame, hframe, hcalls, hindex, hkey⟩ := calls_of_fill? hact hfill
  rw [← hkey]
  exact h.quiet number frame group hframe hcalls (hindex ▸ hgroup) tier value

/-- Nobody is at work for the key of a flight whose leader is done. -/
theorem Led.not_concludes (h : Led c) {frame : Frame} (hframe : c.HasFrame number frame)
    (hwork : frame.AtWork) : ¬c.Concludes frame.group frame.key := by
  rintro ⟨other, leader, flight, outcome, ⟨found, hfound, hleader⟩, hgroup, hkey, hdone⟩
  obtain ⟨task, htask, hmem⟩ := hframe
  obtain ⟨led, errand, hstage, hbusy⟩ := hwork
  have hleads : leader.lead? = some (frame.group, frame.key) := by
    rw [Frame.lead?_leading hdone, hgroup, hkey]
  obtain rfl := h.eq htask hmem hfound hleader (Frame.lead?_leading hstage) hleads
  rw [hdone] at hstage
  cases hstage
  exact hbusy outcome rfl

/-- Every move keeps a cluster in order. -/
theorem Orderly.move (h : Orderly c) (move : Move c action following)
    (hnow : c.now ≤ following.now) : Orderly following where
  led := h.led.move move
  tidy := by
    intro index after hafter
    cases move.restocks hafter with
    | made name settings heq => exact heq ▸ (Group.create_bare name settings).1
    | kept group hgroup hless => exact hless.tidy (h.tidy index group hgroup)
    | filled group fill hgroup _ _ htakes => exact htakes.tidy (h.tidy index group hgroup)
  quiet := by
    intro number frame after hframe hcalls hafter tier value hlive
    obtain ⟨before, group, hmay, hindex, hkey⟩ := move.mayCall h.led hframe hcalls
    have hgone : ∀ {found : Group}, c.groups[frame.group]? = some found →
        ⟨frame.key, value⟩ ∉ found.cache.entries tier := by
      intro found hfound hmem
      have hserved := hmay.served
      rw [hindex, hfound] at hserved
      cases hserved
      refine h.not_live hmay tier value ⟨hkey ▸ hmem, ?_⟩
      exact Value.expired_eq_false_of_le hnow hlive.2
    cases move.restocks hafter with
    | made name settings heq =>
        have hmem := hlive.1
        rw [heq, (Group.create_bare name settings).2.1] at hmem
        cases hmem
    | kept group hgroup hless => exact hgone hgroup (hless.entries tier _ hlive.1)
    | filled group fill hgroup hfill hfillGroup htakes hconcludes =>
        rcases htakes.entries tier _ hlive.1 with hold | ⟨-, hfillKey, -⟩
        · exact hgone hgroup hold
        · rw [show fill.key = frame.key from hfillKey.symm] at hconcludes
          exact (h.led.move move).not_concludes hframe hcalls.atWork hconcludes

/-- Every action keeps a cluster in order. -/
theorem Orderly.act (h : Orderly c) (hact : c.act? action = some following) :
    Orderly following :=
  h.move (act?_move hact) (act?_notes hact).1

/-- A run from an empty cluster leads to clusters in order. -/
theorem Runs.orderly {allowed : Cluster → Action → Prop} (run : Runs allowed empty c) :
    Orderly c := by
  induction run with
  | here => exact orderly_empty
  | next _ _ hact ih => exact ih.act hact

end Cluster

end ReadThrough
