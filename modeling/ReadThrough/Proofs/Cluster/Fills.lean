import ReadThrough.Proofs.Cluster.Admissions
import ReadThrough.Proofs.Cluster.Hops

/-!
# The discipline of a fill

A leader that finds nothing in the tiers fetches from the owner of the key if that is elsewhere and
can be asked at all, and calls its loader if not, or if the fetch came to a fault of the owner's own
and the group falls back. `Filling` says how far it is, by the calls that it made and the replies
that it got, and each moment of a run takes it on by `Advances` or leaves it where it is. The main
statement is `Course.fill_disciplined`.
-/

namespace ReadThrough

/-- The call of a loader. -/
def Event.isLoad : Event → Bool
  | .load .. => true
  | _ => false

/-- The call of a peer. -/
def Event.isFetch : Event → Bool
  | .fetch .. => true
  | _ => false

/-- A reply of a peer. -/
def Reply.isFetched : Reply → Bool
  | .fetched _ => true
  | .loaded _ => false

/-- What a leader calls after the answer of a peer. -/
def Group.Fetched.calls (id name key : String) : Group.Fetched → List Event
  | .done _ => []
  | .fallBack _ => [.load id name key]

namespace Cluster

/-! ## What is seen of a fill -/

/-- The calls that are recorded in one cluster and not yet in another one. -/
def newCalls (c following : Cluster) : List Event :=
  (following.events.toList.drop c.events.size).filter (·.call?.isSome)

/-- The fault that the fetch of a leader comes to at once, if the peer cannot be reached or has no
such group. -/
def refusal? (c : Cluster) (frame : Frame) : Option Fault := do
  let node ← c.nodes[frame.node]?
  let group ← c.groups[frame.group]?
  match node.membership.pick frame.key, node.carrier with
  | .peer peer, .network _ =>
      match c.route peer group.name with
      | .error fault => some fault
      | .ok _ => none
  | _, _ => none

/-- The reply with which an action takes a frame of a task on: the answer of the loader or of an
external peer, the outcome that the frame inside of it hands on, the fault of a connection that
breaks, or that of a fetch that is refused. -/
def reply? (c : Cluster) (number height : Nat) (frame : Frame) : Action → Option Reply
  | .answerLoad _ answer => some (.loaded answer)
  | .answerFetch _ answer => some (.fetched answer)
  | .breakOff _ _ reason =>
      match frame.stage with
      | .leading _ (.fetching peer) => some (.fetched (.error (.transportFailure peer reason)))
      | _ => none
  | .step _ =>
      match frame.stage with
      | .leading _ .recheck => (c.refusal? frame).map fun fault ↦ .fetched (.error fault)
      | _ =>
          match (c.frame? number (height + 1)).map Frame.stage with
          | some (.answered outcome) => some (.fetched outcome)
          | _ => none
  | _ => none

namespace Moment

/-- A frame of a task is not at the stage any more that it was at. -/
def Moves (moment : Moment) (number height : Nat) : Prop :=
  moment.before.frame? number height ≠ moment.after.frame? number height

instance (moment : Moment) (number height : Nat) : Decidable (moment.Moves number height) :=
  inferInstanceAs (Decidable (_ ≠ _))

/-- The calls that a frame of a task makes. -/
def calls (moment : Moment) (number height : Nat) : List Event :=
  if moment.Moves number height then moment.before.newCalls moment.after else []

/-- The reply that takes a frame of a task on. -/
def reply? (moment : Moment) (number height : Nat) : Option Reply :=
  if moment.Moves number height then do
    moment.before.reply? number height (← moment.before.frame? number height) moment.action
  else none

end Moment

/-- The calls that a frame of a task made, the earliest one first. -/
def callsOf (moments : List Moment) (number height : Nat) : List Event :=
  moments.reverse.flatMap fun moment ↦ moment.calls number height

/-- The replies that took a frame of a task on, the earliest one first. -/
def repliesTo (moments : List Moment) (number height : Nat) : List Reply :=
  moments.reverse.filterMap fun moment ↦ moment.reply? number height

/-- How a fill for a key of a group goes, by the calls that it made, the replies that it got and the
outcome that it came to. -/
structure Disciplined (home : Node) (group : Group) (key : String) (calls : List Event)
    (replies : List Reply) (outcome : Outcome) : Prop where
  /-- nothing else is called -/
  asks : ∀ call ∈ calls, call = .load home.id group.name key ∨
    ∃ peer, call = .fetch home.id peer group.name key
  fetches : ∀ peer, .fetch home.id peer group.name key ∈ calls ↔
    home.membership.pick key = .peer peer ∧ home.carrier ≠ .absent
  loads : .load home.id group.name key ∈ calls ↔
    (∀ peer, .fetch home.id peer group.name key ∉ calls) ∨
      ∃ fault, .fetched (.error fault) ∈ replies ∧ fault.isNotFound = false ∧
        fault ≠ .cancelled ∧ group.settings.fallbackToLocal = true
  once : calls.countP Event.isFetch ≤ 1 ∧ calls.countP Event.isLoad ≤ 1
  /-- each call has its reply -/
  answered : replies.map Reply.isFetched = calls.map Event.isFetch
  ends : ∃ reply, replies.getLast? = some reply ∧ outcome = reply.outcome key

/-- A frame that goes on leaves in the tiers of its group what there was, together with what is
offered to them. -/
def Moment.Offers (moment : Moment) (number height index : Nat) (key : String) (admitted : Bool) :
    Prop :=
  ∃ group after, moment.before.groups[index]? = some group ∧
    moment.after.groups[index]? = some after ∧
    after.cache = group.cache.offered key admitted (moment.reply? number height)

/-! ## How far a fill is -/

/-- What a leader is at, the calls that it made and the replies that it got. -/
inductive Filling (home : Node) (name : String) (settings : GroupSettings) (key : String) :
    Errand → List Event → List Reply → Prop where
  | fetching (peer : String) :
      home.membership.pick key = .peer peer → home.carrier ≠ .absent →
      Filling home name settings key (.fetching peer) [.fetch home.id peer name key] []
  | loading :
      home.membership.pick key = .here ∨ home.carrier = .absent →
      Filling home name settings key .loading [.load home.id name key] []
  | fellBack (peer : String) (answer : Outcome) :
      home.membership.pick key = .peer peer → home.carrier ≠ .absent →
      settings.FallsBack answer →
      Filling home name settings key .loading
        [.fetch home.id peer name key, .load home.id name key] [.fetched answer]
  | fetched (peer : String) (answer : Outcome) :
      home.membership.pick key = .peer peer → home.carrier ≠ .absent →
      ¬settings.FallsBack answer →
      Filling home name settings key (.done ((Reply.fetched answer).outcome key))
        [.fetch home.id peer name key] [.fetched answer]
  | loaded (calls : List Event) (replies : List Reply) (answer : LoadAnswer) :
      Filling home name settings key .loading calls replies →
      Filling home name settings key (.done ((Reply.loaded answer).outcome key)) calls
        (replies ++ [.loaded answer])

/-- How a reply takes a leader on that has made a call, and the calls that it makes then. -/
inductive Advances (id name : String) (settings : GroupSettings) (key : String) :
    Errand → List Event → Reply → Errand → Prop where
  | loaded (answer : LoadAnswer) :
      Advances id name settings key .loading [] (.loaded answer)
        (.done ((Reply.loaded answer).outcome key))
  | fetched (peer : String) (answer : Outcome) :
      ¬settings.FallsBack answer →
      Advances id name settings key (.fetching peer) [] (.fetched answer)
        (.done ((Reply.fetched answer).outcome key))
  | fellBack (peer : String) (answer : Outcome) :
      settings.FallsBack answer →
      Advances id name settings key (.fetching peer) [.load id name key] (.fetched answer) .loading

section

variable {home : Node} {id name key : String} {settings : GroupSettings} {errand later : Errand}
  {calls fresh : List Event} {replies : List Reply} {reply : Reply} {outcome : Outcome}

/-- A reply changes what a leader is at. -/
theorem Advances.ne (h : Advances id name settings key errand fresh reply later) :
    errand ≠ later := by
  cases h <;> exact Errand.noConfusion

theorem Filling.ne_recheck (h : Filling home name settings key errand calls replies) :
    errand ≠ .recheck := by
  cases h <;> exact Errand.noConfusion

/-- A reply takes a fill on. -/
theorem Filling.next (h : Filling home name settings key errand calls replies)
    (hadvances : Advances home.id name settings key errand fresh reply later) :
    Filling home name settings key later (calls ++ fresh) (replies ++ [reply]) := by
  cases hadvances with
  | loaded answer =>
      rw [List.append_nil]
      exact .loaded calls replies answer h
  | fetched peer answer hstays =>
      cases h with
      | fetching _ hpick hcarrier => exact .fetched peer answer hpick hcarrier hstays
  | fellBack peer answer hfalls =>
      cases h with
      | fetching _ hpick hcarrier => exact .fellBack peer answer hpick hcarrier hfalls

/-- A fill that has come to an outcome went as it should. -/
theorem Filling.disciplined {group : Group}
    (h : Filling home group.name group.settings key (.done outcome) calls replies) :
    Disciplined home group key calls replies outcome := by
  cases h with
  | fetched peer answer hpick hcarrier hstays =>
      refine ⟨?_, ?_, ?_, ?_, rfl, _, rfl, rfl⟩
      · exact fun call hcall ↦ .inr ⟨peer, List.mem_singleton.1 hcall⟩
      · intro other
        simp [hpick, hcarrier, eq_comm]
      · simp only [List.mem_singleton, reduceCtorEq, false_iff, not_or, not_forall, not_not]
        refine ⟨⟨peer, rfl⟩, ?_⟩
        rintro ⟨fault, heq, hown⟩
        exact hstays ⟨fault, (Reply.fetched.inj heq).symm, hown⟩
      · exact ⟨Nat.le_refl 1, Nat.zero_le 1⟩
  | loaded _ replies answer hloading =>
      cases hloading with
      | loading hhere =>
          have hnone (peer : String) :
              ¬(home.membership.pick key = .peer peer ∧ home.carrier ≠ .absent) := by
            rintro ⟨hpick, hcarrier⟩
            rcases hhere with hpick' | hcarrier'
            · cases hpick.symm.trans hpick'
            · exact hcarrier hcarrier'
          refine ⟨?_, ?_, ?_, ?_, rfl, _, rfl, rfl⟩
          · exact fun call hcall ↦ .inl (List.mem_singleton.1 hcall)
          · intro peer
            simpa using fun hpick hcarrier ↦ hnone peer ⟨hpick, hcarrier⟩
          · simp
          · exact ⟨Nat.zero_le 1, Nat.le_refl 1⟩
      | fellBack peer answer hpick hcarrier hfalls =>
          obtain ⟨fault, rfl, hown⟩ := hfalls
          refine ⟨?_, ?_, ?_, ?_, rfl, _, rfl, rfl⟩
          · intro call hcall
            rcases List.mem_cons.1 hcall with rfl | hcall
            · exact .inr ⟨peer, rfl⟩
            · exact .inl (List.mem_singleton.1 hcall)
          · intro other
            simp [hpick, hcarrier, eq_comm]
          · refine iff_of_true ?_ (.inr ⟨fault, List.mem_cons_self, hown⟩)
            exact List.mem_cons_of_mem _ List.mem_cons_self
          · exact ⟨Nat.le_refl 1, Nat.le_refl 1⟩

end

/-! ## One moment -/

section

variable {c following left : Cluster} {action : Action} {number height : Nat} {frame : Frame}
  {outer : List Frame} {group after : Group} {stage : FrameStage} {errand later : Errand}
  {flight : Nat} {peer id : String} {answer : Outcome} {past : List Moment} {home : Node}

/-- The calls among what was recorded last. -/
theorem newCalls_of_append {fresh : List Event}
    (h : following.events.toList = c.events.toList ++ fresh) :
    c.newCalls following = fresh.filter (·.call?.isSome) := by
  rw [newCalls, h, ← Array.length_toList, List.drop_left]

/-- A leader that takes in the answer of a peer calls its loader if it falls back. -/
theorem takeFetched_newCalls {fresh : List Event}
    (hevents : left.events.toList = c.events.toList ++ fresh)
    (hid : left.idOf frame.node = id) :
    c.newCalls (left.takeFetched number frame outer group flight peer answer) =
      fresh.filter (·.call?.isSome) ++
        (group.takeFetched frame.key left.now answer).1.calls id group.name frame.key := by
  have hname := (group.takeFetched_kept frame.key left.now answer).name
  unfold Cluster.takeFetched
  split
  · next outcome after htaken =>
    rw [htaken]
    exact (newCalls_of_append hevents).trans (List.append_nil _).symm
  · next fault after htaken =>
    rw [htaken] at hname ⊢
    have hrecorded :
        ((left.record (.fellBack after.name peer frame.key fault)).startLoad number frame outer
          after flight).events.toList = c.events.toList ++ (fresh ++
            [.fellBack after.name peer frame.key fault, .load id after.name frame.key]) := by
      subst hid
      rw [← List.append_assoc, ← hevents]
      simp [startLoad, record, setFrames, modifyTask, setGroup, idOf]
    rw [newCalls_of_append hrecorded, List.filter_append, hname]
    rfl

/-- The answer of a peer takes a leader on. -/
theorem advances_takeFetched (id : String) (group : Group) (key : String) (now : Millis)
    (peer : String) (answer : Outcome) :
    Advances id group.name group.settings key (.fetching peer)
      ((group.takeFetched key now answer).1.calls id group.name key) (.fetched answer)
      (group.takeFetched key now answer).1.errand := by
  rcases group.takeFetched_ends key now answer with ⟨hfalls, fault, hback⟩ | ⟨hstays, hdone⟩
  · rw [hback]
    exact .fellBack peer answer hfalls
  · rw [hdone]
    exact .fetched peer answer hstays

/-- What the loader answers is no call. -/
theorem answerLoad?_newCalls {answer : LoadAnswer}
    (hact : c.answerLoad? number answer = some following) : c.newCalls following = [] := by
  simp only [answerLoad?, bind, Option.bind_eq_some_iff] at hact
  obtain ⟨task, htask, hact⟩ := hact
  split at hact
  · next frame outer hframes =>
    split at hact
    · next flight group hstage hgroup =>
      cases hact
      split
      · next reason =>
        have hrecorded : (c.record (.loadFailed group.name frame.key reason)).events.toList =
            c.events.toList ++ [.loadFailed group.name frame.key reason] := Array.toList_push
        exact newCalls_of_append hrecorded
      · exact newCalls_of_append (List.append_nil _).symm
    · cases hact
  · cases hact

/-- A connection that breaks is an answer of the peer. -/
theorem breakOff?_newCalls {depth : Nat} {reason : String} {task : Task}
    (hact : c.breakOff? number depth reason = some following)
    (htask : c.tasks[number]? = some task) (hframe : task.frames[depth + 1]? = some frame)
    (hstage : frame.stage = .leading flight (.fetching peer))
    (hgroup : c.groups[frame.group]? = some group) (hnamed : c.Named frame.node id) :
    c.newCalls following =
      (group.takeFetched frame.key c.now (.error (.transportFailure peer reason))).1.calls id
        group.name frame.key := by
  simp only [breakOff?, htask, hframe, bind, Option.bind_some, hstage] at hact
  split at hact
  · next _ _ reached heq hreached =>
    cases heq
    cases hact
    -- the group that takes the failure in has lost flights of the frames inside, and nothing else
    obtain ⟨before, flights, hbefore, rfl⟩ := group_of_abandon hreached
    cases hgroup.symm.trans hbefore
    have hevents : (c.abandon (task.frames.take (depth + 1))).events.toList =
        c.events.toList ++ [] := by
      rw [events_abandon, List.append_nil]
    have hid : (c.abandon (task.frames.take (depth + 1))).idOf frame.node = id := by
      rw [idOf, nodes_abandon]
      exact hnamed.idOf
    have hlost (answer : Outcome) :
        (({ group with flights } : Group).takeFetched frame.key c.now answer).1 =
          (group.takeFetched frame.key c.now answer).1 :=
      Group.takeFetched_congr frame.key c.now (by rfl) answer
    rw [takeFetched_newCalls hevents hid, now_abandon, hlost]
    rfl
  · cases hact

/-- Where a leader that has made a call goes on and still leads, it does so with a reply, and leaves
in the tiers what is offered to them. -/
theorem Works.advances (h : Works c action number height frame group stage after)
    (hact : c.act? action = some following) (hgroup : c.groups[frame.group]? = some group)
    (hnamed : c.Named frame.node id) (hstage : frame.stage = .leading flight errand)
    (hlate : errand ≠ .recheck) {other : Nat} (hleads : stage = .leading other later) :
    ∃ reply, Advances id group.name group.settings frame.key errand (c.newCalls following) reply
        later ∧
      c.reply? number height frame action = some reply ∧
      after.cache = group.cache.offered frame.key group.gate.decideNext.1 (some reply) := by
  cases h with
  | turned task outer _ _ htask hframes hheight hturn =>
      cases hturn with
      | loaded flight answer hloading =>
          cases hstage.symm.trans hloading
          cases hleads
          refine ⟨.loaded answer, ?_, rfl, group.takeLoaded_cache frame.key c.now answer _⟩
          rw [answerLoad?_newCalls hact, group.takeLoaded_outcome]
          exact .loaded answer
      | fetched flight peer answer hfetching =>
          cases hstage.symm.trans hfetching
          cases hleads
          refine ⟨.fetched answer, ?_, rfl, (group.takeFetched_offers frame.key c.now answer).1⟩
          simp only [act?, answerFetch?, htask, hframes, hstage, hgroup, bind, Option.bind_some,
            Option.some.injEq] at hact
          subst hact
          rw [takeFetched_newCalls (List.append_nil _).symm hnamed.idOf]
          exact advances_takeFetched id group frame.key c.now peer answer
      | found _ _ _ hrecheck | loads _ _ hrecheck | fetches _ _ _ hrecheck
      | refused _ _ _ _ _ hrecheck =>
          cases hstage.symm.trans hrecheck
          exact absurd rfl hlate
      | led hcontends =>
          rcases hcontends with hmissed | ⟨_, hwaiting, -⟩
          · cases hstage.symm.trans hmissed
          · cases hstage.symm.trans hwaiting
      | _ => cases hleads
  | forwarded _ _ _ _ _ _ _ _ _ _ _ hrecheck =>
      cases hstage.symm.trans hrecheck
      exact absurd rfl hlate
  | handed task inner outer outcome flight peer haction htask hframes hheight hinner hfetching =>
      cases hstage.symm.trans hfetching
      cases hleads
      subst haction hheight
      have hwithin : c.frame? number (outer.length + 1) = some inner :=
        frame?_eq_some.2 ⟨task, frame :: outer, htask, hframes ▸ List.suffix_rfl, rfl⟩
      refine ⟨.fetched outcome, ?_, by simp [reply?, hstage, hwithin, hinner],
        (group.takeFetched_offers frame.key c.now outcome).1⟩
      simp only [act?, step?, htask, hframes, bind, Option.bind_some, Option.bind_eq_some_iff,
        hinner, handOn, hstage, hgroup] at hact
      obtain ⟨_, -, hact⟩ := hact
      cases hact
      rw [takeFetched_newCalls (List.append_nil _).symm hnamed.idOf]
      exact advances_takeFetched id group frame.key c.now peer outcome
  | brokeOff depth reason task flight peer held haction htask hframe hheight hfetching halike =>
      cases hstage.symm.trans hfetching
      cases hleads
      subst haction
      refine ⟨.fetched (.error (.transportFailure peer reason)), ?_, by simp [reply?, hstage], ?_⟩
      · rw [breakOff?_newCalls hact htask hframe hstage hgroup hnamed,
          Group.takeFetched_congr frame.key c.now halike.settings]
        exact advances_takeFetched id group frame.key c.now peer _
      · exact (held.takeFetched_offers frame.key c.now _).1.trans halike.cache
  | heeded => cases hleads

/-- What becomes of a leader that finds nothing in the tiers, the calls that it makes at once and
the reply that it gets if its fetch is refused. The tiers stay as they are. -/
def Begun (c following : Cluster) (number height : Nat) (frame : Frame) (group : Group)
    (home : Node) : Prop :=
  ∃ flight errand after,
    following.FrameAt number height { frame with stage := .leading flight errand } ∧
    Filling home group.name group.settings frame.key errand (c.newCalls following)
      ((c.refusal? frame).map fun fault ↦ .fetched (.error fault)).toList ∧
    following.groups[frame.group]? = some after ∧ after.cache = group.cache

theorem Misses.frameAt (hmisses : c.Misses number frame outer group home) {next : Frame}
    {frames : List Frame} (hreframes : c.Reframes number following frames)
    (hsuffix : next :: outer <:+ frames) : following.FrameAt number outer.length next := by
  obtain ⟨task, htask, -⟩ := hmisses.task
  exact ⟨_, outer, hreframes.getElem? htask, hsuffix, rfl⟩

theorem Misses.idOf (hmisses : c.Misses number frame outer group home) :
    c.idOf frame.node = home.id :=
  Named.idOf ⟨home, hmisses.home, rfl⟩

/-- The loader is called here. -/
theorem Misses.begun_loading (hmisses : c.Misses number frame outer group home)
    (hhere : home.membership.pick frame.key = .here ∨ home.carrier = .absent)
    (hrefusal : c.refusal? frame = none) :
    Begun c (c.startLoad number frame outer group flight) number outer.length frame group home := by
  have hrecorded : (c.startLoad number frame outer group flight).events.toList =
      c.events.toList ++ [.load home.id group.name frame.key] := by
    rw [← hmisses.idOf]
    exact Array.toList_push
  refine ⟨flight, .loading, group, hmisses.frameAt ⟨rfl, rfl, rfl⟩ List.suffix_rfl, ?_, ?_, rfl⟩
  · rw [hrefusal, newCalls_of_append hrecorded]
    exact .loading hhere
  · exact (congrArg (·[frame.group]?) (setIfInBounds_same hmisses.served)).trans hmisses.served

/-- A peer is asked, and has not answered yet. -/
theorem begun_fetching
    (hpick : home.membership.pick frame.key = .peer peer) (hcarrier : home.carrier ≠ .absent)
    (hrefusal : c.refusal? frame = none)
    (hevents : following.events = c.events.push (.fetch home.id peer group.name frame.key))
    (hat : following.FrameAt number outer.length
      { frame with stage := .leading flight (.fetching peer) })
    (hafter : ∃ after, following.groups[frame.group]? = some after ∧ after.Alike group) :
    Begun c following number outer.length frame group home := by
  obtain ⟨after, hafter, halike⟩ := hafter
  refine ⟨flight, .fetching peer, after, hat, ?_, hafter, halike.cache⟩
  rw [hrefusal, newCalls_of_append (hevents ▸ Array.toList_push)]
  exact .fetching peer hpick hcarrier

/-- A peer is asked, and the fetch is refused at once. -/
theorem Misses.begun_refused (hmisses : c.Misses number frame outer group home) {fault : Fault}
    (hpick : home.membership.pick frame.key = .peer peer) (hcarrier : home.carrier ≠ .absent)
    (hrefusal : c.refusal? frame = some fault) :
    Begun c
      ((c.record (.fetch home.id peer group.name frame.key)).takeFetched number frame outer group
        flight peer (.error fault))
      number outer.length frame group home := by
  obtain ⟨⟨htasks, hnodes, hnow⟩, hgroups⟩ :=
    takeFetched_spec (c.record (.fetch home.id peer group.name frame.key)) number frame outer group
      flight peer (.error fault)
  have hrecorded : (c.record (.fetch home.id peer group.name frame.key)).events.toList =
      c.events.toList ++ [.fetch home.id peer group.name frame.key] := Array.toList_push
  have hid : (c.record (.fetch home.id peer group.name frame.key)).idOf frame.node = home.id :=
    hmisses.idOf
  refine ⟨flight, _, (group.takeFetched frame.key c.now (.error fault)).2,
    hmisses.frameAt ⟨htasks, hnodes, hnow⟩ List.suffix_rfl, ?_, ?_,
    (group.takeFetched_offers frame.key c.now (.error fault)).1⟩
  · rw [hrefusal, takeFetched_newCalls hrecorded hid]
    exact (Filling.fetching peer hpick hcarrier).next
      (advances_takeFetched home.id group frame.key c.now peer (.error fault))
  · rw [hgroups]
    exact Array.getElem?_setIfInBounds_self_of_lt (Array.getElem?_eq_some_iff.1 hmisses.served).1

/-- A leader that finds nothing in the tiers makes its first call, or two of them if its fetch is
refused at once. -/
theorem Misses.begins (hmisses : c.Misses number frame outer group home)
    (hregistered : ∀ peer node target, c.route peer group.name = .ok (node, target) →
      ∃ served, c.groups[target]? = some served)
    (hact : c.act? (.step number) = some following) :
    Begun c following number outer.length frame group home := by
  obtain ⟨task, htask, hframes⟩ := hmisses.task
  obtain ⟨flight, hstage⟩ := hmisses.stage
  have hgroup := hmisses.served
  have hhome := hmisses.home
  simp only [act?, step?, htask, hframes, bind, Option.bind_some, hgroup, hstage, dispatch,
    hmisses.peek, hhome, Option.some.injEq] at hact
  cases hpick : home.membership.pick frame.key with
  | here =>
      simp only [hpick] at hact
      subst hact
      exact hmisses.begun_loading (.inl hpick) (by simp [refusal?, hhome, hgroup, hpick])
  | peer peer =>
      cases hcarrier : home.carrier with
      | absent =>
          simp only [hpick, hcarrier] at hact
          subst hact
          exact hmisses.begun_loading (.inr hcarrier)
            (by simp [refusal?, hhome, hgroup, hpick, hcarrier])
      | external =>
          simp only [hpick, hcarrier] at hact
          subst hact
          exact begun_fetching hpick (by simp [hcarrier])
            (by simp [refusal?, hhome, hgroup, hpick, hcarrier]) rfl
            (hmisses.frameAt ⟨rfl, rfl, rfl⟩ List.suffix_rfl) ⟨group, hgroup, .refl group⟩
      | network sharesToken =>
          simp only [hpick, hcarrier, forward] at hact
          have hroute' : (c.record (.fetch home.id peer group.name frame.key)).route peer
              group.name = c.route peer group.name := rfl
          rw [hroute'] at hact
          cases hroute : c.route peer group.name with
          | error fault =>
              simp only [hroute] at hact
              subst hact
              exact hmisses.begun_refused hpick (by simp [hcarrier])
                (by simp [refusal?, hhome, hgroup, hpick, hcarrier, hroute])
          | ok reached =>
              obtain ⟨node, target⟩ := reached
              obtain ⟨served, hserved⟩ := hregistered peer node target hroute
              have hserved' : (c.record (.fetch home.id peer group.name frame.key)).groups[target]?
                  = some served := hserved
              simp only [hroute, hserved'] at hact
              subst hact
              exact begun_fetching hpick (by simp [hcarrier])
                (by simp [refusal?, hhome, hgroup, hpick, hcarrier, hroute]) rfl
                (hmisses.frameAt ⟨rfl, rfl, rfl⟩ (List.suffix_cons _ _))
                (setIfInBounds_alike hgroup hserved ⟨rfl, rfl, rfl, rfl, rfl⟩)

/-- A fetch that goes out over the network reaches a group that is there. -/
theorem Runs.reaches {allowed : Cluster → Action → Prop} (run : Runs allowed empty c)
    (peer name : String) (node target : Nat) (hroute : c.route peer name = .ok (node, target)) :
    ∃ served, c.groups[target]? = some served := by
  obtain ⟨keys, goals, hsound⟩ := run.keyed
  obtain ⟨found, hfound, hlookup⟩ := Option.bind_eq_some_iff.1 (route_ok hroute).2
  obtain ⟨served, hserved, -⟩ :=
    hsound.registry node found name target hfound (mem_of_lookup hlookup)
  exact ⟨served, hserved⟩

/-- With its first moment a fill has begun. -/
theorem Course.first_moment (course : Course empty c past)
    (hact : c.act? (.step number) = some following)
    (hmisses : c.Misses number frame outer group home)
    (hafter : following.frame? number outer.length =
      some { frame with stage := .leading flight errand }) (admitted : Bool) :
    let moment : Moment := ⟨c, .step number, following⟩
    Filling home group.name group.settings frame.key errand (moment.calls number outer.length)
        (moment.reply? number outer.length).toList ∧
      moment.Offers number outer.length frame.group frame.key admitted := by
  intro moment
  obtain ⟨started, found, after, hat, hfilling, hgroup, hcache⟩ :=
    hmisses.begins (course.runs.reaches · group.name) hact
  obtain ⟨task, htask, hframes⟩ := hmisses.task
  obtain ⟨led, hstage⟩ := hmisses.stage
  have hbefore : c.frame? number outer.length = some frame :=
    frame?_eq_some.2 ⟨task, outer, htask, hframes ▸ List.suffix_rfl, rfl⟩
  have hfound := congrArg Frame.stage (hat.unique (frame?_eq_some.1 hafter))
  cases hfound
  have hmoves : moment.Moves number outer.length := by
    intro heq
    have hsame : some frame = some { frame with stage := .leading flight errand } :=
      hbefore.symm.trans (heq.trans hafter)
    have hstays := congrArg Frame.stage (Option.some.inj hsame)
    cases hstage.symm.trans hstays
    exact hfilling.ne_recheck rfl
  have hreply : moment.reply? number outer.length =
      (c.refusal? frame).map fun fault ↦ .fetched (.error fault) := by
    rw [Moment.reply?, if_pos hmoves]
    simp [moment, hbefore, Cluster.reply?, hstage]
  rw [hreply, Moment.calls, if_pos hmoves]
  refine ⟨hfilling, group, after, hmisses.served, hgroup, ?_⟩
  rw [hreply, hcache]
  cases c.refusal? frame <;> rfl

/-- A later moment takes a fill on or leaves it where it is. -/
theorem Course.later_moment (course : Course empty c past) (hact : c.act? action = some following)
    (hgroup : c.groups[frame.group]? = some group) (hnamed : c.Named frame.node id)
    (hbefore : c.frame? number height = some { frame with stage := .leading flight errand })
    (hlate : errand ≠ .recheck)
    (hafter : following.frame? number height =
      some { frame with stage := .leading flight later }) :
    let moment : Moment := ⟨c, action, following⟩
    (¬moment.Moves number height ∧ later = errand) ∨
      moment.Moves number height ∧ ∃ reply,
        Advances id group.name group.settings frame.key errand (moment.calls number height) reply
          later ∧
        moment.reply? number height = some reply ∧
        moment.Offers number height frame.group frame.key
          (group.settings.hotAdmission.admits (fetchedValues past frame.group)) := by
  intro moment
  have hstays (hsame : { frame with stage := .leading flight later } =
      { frame with stage := .leading flight errand }) :
      ¬moment.Moves number height ∧ later = errand := by
    cases congrArg Frame.stage hsame
    exact ⟨fun hmoves ↦ hmoves (hbefore.trans hafter.symm), rfl⟩
  have hat := frame?_eq_some.1 hbefore
  have hnext := frame?_eq_some.1 hafter
  rcases (act?_move hact).worker course.runs.grouped with
    ⟨other, place, worker, held, stage, after, hworker, hheld, hworks, hleft, hput, hspares⟩ |
    ⟨hspares, -⟩
  · by_cases hhere : number = other ∧ height = place
    · obtain ⟨rfl, rfl⟩ := hhere
      obtain rfl := hat.unique hworker
      cases hgroup.symm.trans hheld
      have hleads := congrArg Frame.stage (hleft.unique hnext)
      obtain ⟨reply, hadvances, hreply, hcache⟩ :=
        hworks.advances hact hgroup hnamed rfl hlate hleads
      have hmoves : moment.Moves number height := by
        intro heq
        have hsame := Option.some.inj (hbefore.symm.trans (heq.trans hafter))
        cases congrArg Frame.stage hsame
        exact hadvances.ne rfl
      have hreplied : moment.reply? number height = some reply := by
        rw [Moment.reply?, if_pos hmoves]
        simp [moment, hbefore, hreply]
      refine .inr ⟨hmoves, reply, ?_, hreplied, group, after, hgroup, hput, ?_⟩
      · rwa [Moment.calls, if_pos hmoves]
      · rw [hreplied, hcache, (course.counts hgroup).admits]
    · exact .inl (hstays (hspares.frames number height _ _ hat hnext hhere))
  · exact .inl (hstays (hspares.frames number height _ _ hat hnext not_false))

end

/-! ## A whole fill -/

section

variable {c : Cluster} {during earlier : List Moment} {first moment : Moment} {number height : Nat}
  {frame : Frame} {outer : List Frame} {group : Group} {home : Node} {flight : Nat}
  {outcome : Outcome}

theorem callsOf_cons (moments : List Moment) :
    callsOf (moment :: moments) number height =
      callsOf moments number height ++ moment.calls number height := by
  simp [callsOf]

theorem repliesTo_cons (moments : List Moment) :
    repliesTo (moment :: moments) number height =
      repliesTo moments number height ++ (moment.reply? number height).toList := by
  rw [repliesTo, List.reverse_cons, List.filterMap_append, repliesTo]
  cases hreply : moment.reply? number height <;> simp [hreply]

/-- How far a fill is after some moments, and what each of them offered to the tiers. -/
structure Filled (c : Cluster) (during earlier : List Moment) (number height : Nat) (frame : Frame)
    (group : Group) (home : Node) (flight : Nat) (errand : Errand) : Prop where
  stage : c.frame? number height = some { frame with stage := .leading flight errand }
  named : c.Named frame.node home.id
  held : ∃ held, c.groups[frame.group]? = some held ∧ held.name = group.name ∧
    held.settings = group.settings
  filling : Filling home group.name group.settings frame.key errand (callsOf during number height)
    (repliesTo during number height)
  offers : ∀ moment before, moment :: before <:+ during → moment.Moves number height →
    moment.Offers number height frame.group frame.key
      (group.settings.hotAdmission.admits (fetchedValues (before ++ earlier) frame.group))

/-- Every moment takes a fill on or leaves it where it is. -/
theorem Course.filled (course : Course empty c (during ++ first :: earlier))
    (hfirst : first.action = .step number)
    (hmisses : first.before.Misses number frame outer group home)
    (hleads : ∀ moment ∈ during ++ [first], ∃ errand,
      moment.after.frame? number outer.length =
        some { frame with stage := .leading flight errand }) :
    ∃ errand, Filled c (during ++ [first]) earlier number outer.length frame group home flight
      errand := by
  induction during generalizing c with
  | nil =>
      cases course with
      | @next before _ _ action course hact =>
          obtain rfl : action = .step number := hfirst
          obtain ⟨errand, hafter⟩ := hleads _ List.mem_cons_self
          obtain ⟨hfilling, hoffers⟩ := course.first_moment hact hmisses hafter
            (group.settings.hotAdmission.admits (fetchedValues earlier frame.group))
          obtain ⟨after, hgroup, hname, hsettings, -⟩ :=
            act?_decides hact course.runs.grouped hmisses.served
          refine ⟨errand, hafter, Named.move ⟨home, hmisses.home, rfl⟩ (act?_move hact),
            ⟨after, hgroup, hname, hsettings⟩, ?_, ?_⟩
          · rw [List.nil_append, callsOf_cons, repliesTo_cons]
            exact hfilling
          · intro moment before hsuffix _
            obtain ⟨rfl, rfl⟩ : moment = ⟨_, .step number, c⟩ ∧ before = [] := by
              rcases List.suffix_cons_iff.1 hsuffix with heq | hsuffix
              · exact List.cons.inj heq
              · cases List.suffix_nil.1 hsuffix
            exact hoffers
  | cons last rest ih =>
      cases course with
      | @next middle _ _ action course hact =>
          obtain ⟨errand, hat, hnamed, ⟨held, hheld, hname, hsettings⟩, hfilling, hoffers⟩ :=
            ih course fun moment hmem ↦ hleads moment (List.mem_cons_of_mem _ hmem)
          obtain ⟨later, hafter⟩ := hleads _ List.mem_cons_self
          obtain ⟨after, hgroup, hname', hsettings', -⟩ :=
            act?_decides hact course.runs.grouped hheld
          have hgoes := course.later_moment hact hheld hnamed hat hfilling.ne_recheck hafter
          rw [hname, hsettings] at hgoes
          refine ⟨later, hafter, hnamed.move (act?_move hact),
            ⟨after, hgroup, hname'.trans hname, hsettings'.trans hsettings⟩, ?_, ?_⟩
          · rw [List.cons_append, callsOf_cons, repliesTo_cons]
            rcases hgoes with ⟨hstill, rfl⟩ | ⟨hmoves, reply, hadvances, hreply, -⟩
            · rw [Moment.calls, if_neg hstill, Moment.reply?, if_neg hstill]
              simpa using hfilling
            · rw [hreply]
              exact hfilling.next hadvances
          · intro moment before hsuffix hmoves
            rcases List.suffix_cons_iff.1 hsuffix with heq | hsuffix
            · cases heq
              obtain ⟨hstill, -⟩ | ⟨-, reply, -, -, hoffer⟩ := hgoes
              · exact absurd hmoves hstill
              · simpa using hoffer
            · exact hoffers moment before hsuffix hmoves

/-- The discipline of a fill. Take any run and a leader that finds nothing in the tiers at some
moment of it, and that comes to an outcome without giving its flight up. From that moment on, it
fetches from the owner of the key if and only if that is elsewhere and there is a way to ask it. It
calls its loader if and only if it did not fetch, or if the fetch came to a fault other than an
absence or a cancellation and the group falls back. It makes each call at most once, each call has
its reply, and what the fill comes to is the last reply, where an absence is one of the key that was
asked for. Whenever the leader goes on, it leaves in the tiers what there was, but for a value: one
of the loader is offered to the main tier, and one that was fetched to the hot tier if it is
admitted by its number, which is how many values the group has fetched before in its life. -/
theorem Course.fill_disciplined (course : Course empty c (during ++ first :: earlier))
    (hfirst : first.action = .step number)
    (hmisses : first.before.Misses number frame outer group home)
    (hleads : ∀ moment ∈ during ++ [first], ∃ errand,
      moment.after.frame? number outer.length =
        some { frame with stage := .leading flight errand })
    (hdone : c.frame? number outer.length =
      some { frame with stage := .leading flight (.done outcome) }) :
    Disciplined home group frame.key (callsOf (during ++ [first]) number outer.length)
        (repliesTo (during ++ [first]) number outer.length) outcome ∧
      ∀ moment before, moment :: before <:+ during ++ [first] →
        moment.Moves number outer.length →
        moment.Offers number outer.length frame.group frame.key
          (group.settings.hotAdmission.admits (fetchedValues (before ++ earlier) frame.group)) := by
  obtain ⟨errand, hstage, -, -, hfilling, hoffers⟩ := course.filled hfirst hmisses hleads
  have hcome := congrArg Frame.stage (Option.some.inj (hstage.symm.trans hdone))
  cases hcome
  exact ⟨hfilling.disciplined, hoffers⟩

end

/-- A node that fetches every key from a peer has a get that leads a flight. -/
def poised : Cluster :=
  (empty.actAll? [.join (.alone "a" 1 fun _ ↦ 0) .external "/" 1000, .changePeers 0 (.set ["b"]),
    .create 0 "g" .default, .get 0 0 "k" true false none, .step 0, .step 0]).get (by decide +kernel)

/-- The peer has been asked. -/
def asking : Cluster :=
  (poised.act? (.step 0)).get (by decide +kernel)

/-- The peer has failed, and the loader is called. -/
def failing : Cluster :=
  (asking.act? (.answerFetch 0 (.error (.internal "down")))).get (by decide +kernel)

/-- The loader has a value. -/
def rescued : Cluster :=
  (failing.act? (.answerLoad 0 (.ok (.lasting "v".toUTF8)))).get (by decide +kernel)

/-- The moments after the peer has been asked, the latest one first. -/
def rescue : List Moment :=
  [⟨failing, .answerLoad 0 (.ok (.lasting "v".toUTF8)), rescued⟩,
    ⟨asking, .answerFetch 0 (.error (.internal "down")), failing⟩]

/-- The get finds nothing in the tiers, asks the peer and then its loader, whose value is offered to
the main tier. -/
theorem fill_disciplined_rescued :
    callsOf (rescue ++ [⟨poised, .step 0, asking⟩]) 0 0 =
        [.fetch "a" "b" "g" "k", .load "a" "g" "k"] ∧
      ∃ earlier group home, Course empty rescued (rescue ++ ⟨poised, .step 0, asking⟩ :: earlier) ∧
        poised.Misses 0 ⟨0, 0, "k", true, .leading 0 .recheck⟩ [] group home ∧
        Disciplined home group "k" (callsOf (rescue ++ [⟨poised, .step 0, asking⟩]) 0 0)
          (repliesTo (rescue ++ [⟨poised, .step 0, asking⟩]) 0 0) (.ok (.lasting "v".toUTF8)) ∧
        ∃ admitted, Moment.Offers ⟨failing, .answerLoad 0 (.ok (.lasting "v".toUTF8)), rescued⟩
          0 0 0 "k" admitted := by
  have hact : empty.actAll? _ = some poised := (Option.some_get _).symm
  obtain ⟨past, hcourse, -⟩ := Course.here.actAll hact
  have hframes : (poised.tasks[0]?).map Task.frames =
      some [⟨0, 0, "k", true, .leading 0 .recheck⟩] := by decide +kernel
  have hserved : (poised.groups[0]?).map (fun group ↦ group.cache.peek "k" poised.now) =
      some none := by decide +kernel
  have hhome : (poised.nodes[0]?).isSome := by decide +kernel
  obtain ⟨task, htask, hframes⟩ := Option.map_eq_some_iff.1 hframes
  obtain ⟨group, hgroup, hpeek⟩ := Option.map_eq_some_iff.1 hserved
  obtain ⟨home, hhome⟩ := Option.isSome_iff_exists.1 hhome
  have hmisses : poised.Misses 0 ⟨0, 0, "k", true, .leading 0 .recheck⟩ [] group home :=
    ⟨⟨task, htask, hframes⟩, hgroup, ⟨0, rfl⟩, hpeek, hhome⟩
  have hasking : poised.act? (.step 0) = some asking := (Option.some_get _).symm
  have hfailing : asking.act? (.answerFetch 0 (.error (.internal "down"))) = some failing :=
    (Option.some_get _).symm
  have hrescued : failing.act? (.answerLoad 0 (.ok (.lasting "v".toUTF8))) = some rescued :=
    (Option.some_get _).symm
  have hfill : Course empty rescued (rescue ++ ⟨poised, .step 0, asking⟩ :: past) :=
    List.append_nil past ▸ ((hcourse.next hasking).next hfailing).next hrescued
  have hleads : ∀ moment ∈ rescue ++ [⟨poised, .step 0, asking⟩], ∃ errand,
      moment.after.frame? 0 0 = some ⟨0, 0, "k", true, .leading 0 errand⟩ := by
    simp only [rescue, List.cons_append, List.nil_append, List.forall_mem_cons]
    exact ⟨⟨.done (.ok (.lasting "v".toUTF8)), by decide +kernel⟩, ⟨.loading, by decide +kernel⟩,
      ⟨.fetching "b", by decide +kernel⟩, fun _ hmem ↦ nomatch hmem⟩
  have hdone : rescued.frame? 0 0 =
      some ⟨0, 0, "k", true, .leading 0 (.done (.ok (.lasting "v".toUTF8)))⟩ := by decide +kernel
  obtain ⟨hdisciplined, hoffers⟩ := hfill.fill_disciplined rfl hmisses hleads hdone
  exact ⟨by decide +kernel, past, group, home, hfill, hmisses, hdisciplined, _,
    hoffers _ _ List.suffix_rfl (by decide +kernel)⟩

end Cluster

end ReadThrough
