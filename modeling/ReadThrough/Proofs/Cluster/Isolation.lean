import ReadThrough.Proofs.Cluster.Verdicts

/-!
# Whom a cancellation reaches

A fetch may answer that it was cancelled once the token that it was given has fired. The leader
that made the fetch hears the same token, but where its work is done first it lands its flight with
that answer, and every call that waits on the flight takes it for its own, tokens that never fired
or not. The main statement is `cancellation_isolated`: as long as no leader lands a cancellation
while a live get waits on its flight, a get is cancelled only if its own token fired; and whenever
one does, the get that waits can end cancelled.
-/

namespace ReadThrough

/-! ## Where cancellations come from -/

/-- A group refuses a get only if the token of the get has fired. -/
theorem Group.consult_cancelled {group after : Group} {key : String} {now : Millis}
    {cancelled : Bool}
    (h : group.consult key now cancelled = (some (.error .cancelled), after)) :
    cancelled = true := by
  unfold consult at h
  dsimp only at h
  split at h
  · assumption
  · split at h
    · cases h
    · split at h <;> cases h

/-- The answer of a loader is never a cancellation. -/
theorem LoadAnswer.outcome_ne_cancelled (key : String) (answer : LoadAnswer) :
    LoadAnswer.outcome key answer ≠ .error .cancelled := by
  rcases answer with (_ | _) | _ <;> simp [LoadAnswer.outcome]

/-- A fetch ends a get with a cancellation only if that is what it answered. -/
theorem Group.takeFetched_cancelled {group : Group} {key : String} {now : Millis}
    {answer : Outcome} (h : (group.takeFetched key now answer).1.errand =
      .done (.error .cancelled)) : answer = .error .cancelled := by
  cases answer with
  | ok value => cases h
  | error fault =>
      by_cases hown : fault.isNotFound = false ∧ fault ≠ .cancelled
      · rw [group.takeFetched_own key now hown.1 hown.2] at h
        dsimp only at h
        split at h
        · cases h
        · cases h
          exact absurd rfl hown.2
      · cases fault with
        | cancelled => rfl
        | notFound => cases h
        | _ => exact absurd ⟨rfl, by simp⟩ hown

namespace Cluster

/-- The token that the innermost frame of a task hears has fired. -/
def Fired (c : Cluster) (number : Nat) : Prop :=
  ∃ task frame outer, c.tasks[number]? = some task ∧ task.frames = frame :: outer ∧
    task.cancelled = true ∧ frame.hearsToken = true

/-- Fetches are answered from outside, and with a cancellation only after the token that they were
given has fired. -/
def Contract (c : Cluster) : Action → Prop
  | .join _ carrier _ _ => ∀ sharesToken, carrier ≠ .network sharesToken
  | .answerFetch number answer => answer = .error .cancelled → c.Fired number
  | _ => True

/-- A get without a timeout whose token has not fired waits on a flight of a group. -/
def LiveWaiter (c : Cluster) (number : Nat) (task : Task) (frame : Frame)
    (index flight : Nat) : Prop :=
  c.tasks[number]? = some task ∧ task.purpose = .get ∧ task.deadline = none ∧
    task.frames = [frame] ∧ frame.group = index ∧ frame.stage = .waiting flight ∧
    ¬(task.cancelled = true ∧ frame.hearsToken = true)

/-- A leader is about to land a cancellation while a live get waits on its flight. -/
def Endangers (c : Cluster) (action : Action) : Prop :=
  ∃ number frame group flight waiter task waiting, action = .step number ∧
    c.Innermost number frame group ∧ frame.stage = .leading flight (.done (.error .cancelled)) ∧
    c.LiveWaiter waiter task waiting frame.group flight

/-! ## The invariant -/

/-- A task that may end cancelled: it is no get, it has a timeout, or its token fired. -/
def Excused (hears : Bool) (task : Task) : Prop :=
  task.purpose ≠ .get ∨ task.deadline ≠ none ∨ task.cancelled = true ∧ hears = true

/-- A cancellation has come to a frame: it is its outcome, or that of the flight it waits on. -/
def Struck (frame : Frame) (group : Group) : Prop :=
  frame.stage = .answered (.error .cancelled) ∨
    (∃ flight, frame.stage = .leading flight (.done (.error .cancelled))) ∨
    ∃ flight, frame.stage = .waiting flight ∧
      group.flights.flights[flight]? = some (.landed (.error .cancelled))

/-- What holds of every cluster in which no leader lands a cancellation while a live get waits. -/
structure Guarded (hears : Nat → Bool) (c : Cluster) : Prop where
  carriers : ∀ (index : Nat) (node : Node), c.nodes[index]? = some node →
    ∀ sharesToken, node.carrier ≠ .network sharesToken
  frames : ∀ (number : Nat) (task : Task), c.tasks[number]? = some task → ∀ frame ∈ task.frames,
    task.frames = [frame] ∧ frame.hearsToken = hears number ∧
      ∀ group, c.groups[frame.group]? = some group → Struck frame group →
        Excused (hears number) task
  answers : ∀ (number : Nat) (task : Task), c.tasks[number]? = some task →
    task.answer = some (.got (.error .cancelled)) → Excused (hears number) task

/-- A stage that is neither an outcome nor the wait for one is not struck. -/
theorem not_struck_leading {frame : Frame} {group : Group} {flight : Nat} {errand : Errand}
    (hne : errand ≠ .done (.error .cancelled)) :
    ¬Struck { frame with stage := .leading flight errand } group := by
  rintro (h | ⟨_, h⟩ | ⟨_, h, -⟩) <;> cases h
  exact hne rfl

/-- A turn strikes a frame only if it was struck before, or its token fired. -/
theorem Turn.struck {c : Cluster} {number : Nat} {task : Task} {frame : Frame}
    {outer : List Frame} {group after : Group} {action : Action} {stage : FrameStage}
    {P : Verdict} {keys : Nat → String} (h : group.Agrees P keys)
    (hcontract : Contract c action) (htask : c.tasks[number]? = some task)
    (hframes : task.frames = frame :: outer)
    (turn : Turn c number task frame group action stage after)
    (hstruck : Struck { frame with stage } after) :
    Struck frame group ∨ task.cancelled = true ∧ frame.hearsToken = true := by
  cases turn with
  | answered outcome after hstage hconsult =>
      rcases hstruck with heq | ⟨_, heq⟩ | ⟨_, heq, -⟩ <;> cases heq
      have hfired := Group.consult_cancelled hconsult
      simp only [Bool.and_eq_true] at hfired
      exact .inr hfired.symm
  | missed => rcases hstruck with heq | ⟨_, heq⟩ | ⟨_, heq, -⟩ <;> cases heq
  | joined flight hcontends hmem =>
      rcases hstruck with heq | ⟨_, heq⟩ | ⟨_, heq, hlanded⟩ <;> cases heq
      rw [(h.records frame.key flight hmem).1] at hlanded
      cases hlanded
  | took flight outcome hstage hlanded =>
      rcases hstruck with heq | ⟨_, heq⟩ | ⟨_, heq, -⟩ <;> cases heq
      exact .inl (.inr (.inr ⟨flight, hstage, hlanded⟩))
  | led | found | loads | fetches => exact absurd hstruck (not_struck_leading (by simp))
  | refused flight node peer sharesToken fault hstage hpeek hnode hpick hcarrier hroute =>
      refine absurd hstruck (not_struck_leading fun heq ↦ ?_)
      cases Group.takeFetched_cancelled heq
      exact (route_own hroute).2 rfl
  | landed flight outcome hstage =>
      rcases hstruck with heq | ⟨_, heq⟩ | ⟨_, heq, -⟩ <;> cases heq
      exact .inl (.inr (.inl ⟨flight, hstage⟩))
  | loaded flight answer hstage =>
      refine absurd hstruck (not_struck_leading fun heq ↦ ?_)
      rw [group.takeLoaded_outcome] at heq
      exact LoadAnswer.outcome_ne_cancelled frame.key answer (Errand.done.inj heq)
  | fetched flight peer answer hstage =>
      by_cases heq : (group.takeFetched frame.key c.now answer).1.errand =
          .done (.error .cancelled)
      · -- the contract: the token that the fetch was given is that of the frame
        obtain ⟨task', frame', outer', htask', hframes', hcancelled, hhears⟩ :=
          hcontract (Group.takeFetched_cancelled heq)
        rw [htask] at htask'
        cases htask'
        rw [hframes] at hframes'
        cases hframes'
        exact .inr ⟨hcancelled, hhears⟩
      · exact absurd hstruck (not_struck_leading heq)

/-! ## Moves -/

/-- A task that may end cancelled still may later on. -/
theorem Excused.later {hears : Bool} {now : Millis} {task after : Task}
    (h : Excused hears task) (hcontinues : Continues now task after) : Excused hears after := by
  rcases h with hpurpose | hdeadline | ⟨hcancelled, hhears⟩
  · exact .inl (hcontinues.purpose ▸ hpurpose)
  · exact .inr (.inl (hcontinues.deadline ▸ hdeadline))
  · exact .inr (.inr ⟨hcontinues.cancelled hcancelled, hhears⟩)

/-- Flights that are cancelled in one cluster were in another one, or only tasks that may end
cancelled wait on them. -/
def Spares (hears : Nat → Bool) (c following : Cluster) : Prop :=
  ∀ (index : Nat) (after : Group) (flight : Nat), following.groups[index]? = some after →
    after.flights.flights[flight]? = some (.landed (.error .cancelled)) →
    (∃ group, c.groups[index]? = some group ∧
      group.flights.flights[flight]? = some (.landed (.error .cancelled))) ∨
    ∀ (number : Nat) (task : Task) (frame : Frame), c.tasks[number]? = some task →
      task.frames = [frame] → frame.group = index → frame.stage = .waiting flight →
      Excused (hears number) task

variable {hears : Nat → Bool} {c following : Cluster} {number : Nat} {P : Verdict}
  {keys : Nat → Nat → String} {goals : Nat → String × String}

theorem spares_of_eq (h : following.groups = c.groups) : Spares hears c following :=
  fun _ after _ hafter hlanded ↦ .inl ⟨after, h ▸ hafter, hlanded⟩

/-- Losing flights cancels none. -/
theorem spares_abandon (frames : List Frame) (h : following.groups = (c.abandon frames).groups) :
    Spares hears c following := by
  intro index after flight hafter hlanded
  exact .inl (landed_abandon (h ▸ hafter) hlanded)

/-- A group that is put back cancels a flight only if it did before, or spares those that wait. -/
theorem spares_setGroup {index : Nat} {group after : Group} (hgroup : c.groups[index]? = some group)
    (hgroups : following.groups = c.groups.setIfInBounds index after)
    (hspares : ∀ flight : Nat,
      after.flights.flights[flight]? = some (.landed (.error .cancelled)) →
      group.flights.flights[flight]? = some (.landed (.error .cancelled)) ∨
      ∀ (number : Nat) (task : Task) (frame : Frame), c.tasks[number]? = some task →
        task.frames = [frame] → frame.group = index → frame.stage = .waiting flight →
        Excused (hears number) task) : Spares hears c following := by
  intro other found flight hfound hlanded
  rw [hgroups, Array.getElem?_setIfInBounds] at hfound
  split at hfound
  · next heq =>
    subst heq
    split at hfound
    · cases hfound
      exact (hspares flight hlanded).imp_left fun hbefore ↦ ⟨group, hgroup, hbefore⟩
    · cases hfound
  · exact .inl ⟨found, hfound, hlanded⟩

/-- A frame that is struck by a change was struck before, or may end cancelled. -/
theorem Guarded.excused (h : Guarded hears c) (hsound : Sound P keys goals c)
    (hspares : Spares hears c following) {task : Task} (htask : c.tasks[number]? = some task)
    {frame : Frame} (hmem : frame ∈ task.frames) {after : Group}
    (hafter : following.groups[frame.group]? = some after) (hstruck : Struck frame after) :
    Excused (hears number) task := by
  obtain ⟨hframes, -, hexcused⟩ := h.frames number task htask frame hmem
  obtain ⟨group, hgroup, -⟩ := hsound.frames number task htask frame hmem
  rcases hstruck with hanswered | hdone | ⟨flight, hwaiting, hlanded⟩
  · exact hexcused group hgroup (.inl hanswered)
  · exact hexcused group hgroup (.inr (.inl hdone))
  · rcases hspares frame.group after flight hafter hlanded with ⟨found, hfound, hbefore⟩ | hspared
    · exact hexcused found hfound (.inr (.inr ⟨flight, hwaiting, hbefore⟩))
    · exact hspared number task frame htask hframes rfl hwaiting

/-- A change of one task that spares those that wait keeps the cluster guarded. -/
theorem Guarded.retask (h : Guarded hears c) (hsound : Sound P keys goals c)
    {change : Task → Task} (hretasks : c.Retasks number following change)
    (hcontinues : ∀ task, c.tasks[number]? = some task → Continues c.now task (change task))
    (hspares : Spares hears c following)
    (hframes : ∀ task, c.tasks[number]? = some task → ∀ frame ∈ (change task).frames,
      (change task).frames = [frame] ∧ frame.hearsToken = hears number ∧
        ∀ group, following.groups[frame.group]? = some group → Struck frame group →
          Excused (hears number) task)
    (hanswer : ∀ task, c.tasks[number]? = some task →
      (change task).answer = some (.got (.error .cancelled)) → Excused (hears number) task) :
    Guarded hears following := by
  -- the tasks that stay as they are were struck before, or are spared
  constructor
  · rw [hretasks.nodes]
    exact h.carriers
  · intro other task htask frame hframe
    rcases hretasks.cases htask with hold | ⟨rfl, before, hbefore, rfl⟩
    · obtain ⟨honly, hhears, -⟩ := h.frames other task hold frame hframe
      exact ⟨honly, hhears, fun group hgroup ↦ h.excused hsound hspares hold hframe hgroup⟩
    · obtain ⟨honly, hhears, hexcused⟩ := hframes before hbefore frame hframe
      exact ⟨honly, hhears, fun group hgroup hstruck ↦
        (hexcused group hgroup hstruck).later (hcontinues before hbefore)⟩
  · intro other task htask hgot
    rcases hretasks.cases htask with hold | ⟨rfl, before, hbefore, rfl⟩
    · exact h.answers other task hold hgot
    · exact (hanswer before hbefore hgot).later (hcontinues before hbefore)

/-- A change of the nodes or of groups that spares those that wait keeps the cluster guarded. -/
theorem Guarded.around (h : Guarded hears c) (hsound : Sound P keys goals c)
    (htasks : following.tasks = c.tasks) (hspares : Spares hears c following)
    (hcarriers : ∀ (index : Nat) (node : Node), following.nodes[index]? = some node →
      ∀ sharesToken, node.carrier ≠ .network sharesToken) : Guarded hears following where
  carriers := hcarriers
  frames := by
    rw [htasks]
    intro number task htask frame hframe
    obtain ⟨honly, hhears, -⟩ := h.frames number task htask frame hframe
    exact ⟨honly, hhears, fun group hgroup ↦ h.excused hsound hspares htask hframe hgroup⟩
  answers := by
    rw [htasks]
    exact h.answers

/-- A task that is begun keeps the cluster guarded. -/
theorem Guarded.push (h : Guarded hears c) {task : Task}
    (htasks : following.tasks = c.tasks.push task) (hnodes : following.nodes = c.nodes)
    (hgroups : following.groups = c.groups) {hearsToken : Bool}
    (hframes : ∀ frame ∈ task.frames, task.frames = [frame] ∧ frame.hearsToken = hearsToken ∧
      frame.stage = .asked)
    (hanswer : task.answer ≠ some (.got (.error .cancelled))) :
    Guarded (Function.update hears c.tasks.size hearsToken) following where
  carriers := by
    rw [hnodes]
    exact h.carriers
  frames := by
    intro number found hfound frame hframe
    rw [htasks, Array.getElem?_push] at hfound
    rw [hgroups]
    split at hfound
    · next heq =>
      cases hfound
      subst heq
      obtain ⟨honly, hhears, hasked⟩ := hframes frame hframe
      rw [Function.update_self]
      refine ⟨honly, hhears, ?_⟩
      rintro group - (hstage | ⟨_, hstage⟩ | ⟨_, hstage, -⟩) <;> rw [hasked] at hstage <;>
        cases hstage
    · next hne =>
      rw [Function.update_of_ne hne]
      exact h.frames number found hfound frame hframe
  answers := by
    intro number found hfound hgot
    rw [htasks, Array.getElem?_push] at hfound
    split at hfound
    · cases hfound
      exact absurd hgot hanswer
    · next hne =>
      rw [Function.update_of_ne hne]
      exact h.answers number found hfound hgot

/-- A task that begins on a group keeps the cluster guarded. -/
theorem Guarded.begin (h : Guarded hears c) (node index : Nat) (key : String) (purpose : Purpose)
    (hearsToken cancelled : Bool) (deadline : Option Millis) :
    Guarded (Function.update hears c.tasks.size hearsToken)
      (c.begin node index key purpose hearsToken cancelled deadline).2 := by
  have htasks : (c.begin node index key purpose hearsToken cancelled deadline).2.tasks =
    c.tasks.push _ := rfl
  refine h.push htasks rfl rfl ?_ ?_
  · intro frame hframe
    rw [List.mem_singleton.1 hframe]
    exact ⟨rfl, rfl, rfl⟩
  · exact fun hnone ↦ nomatch hnone

/-- Other frames of a task keep the cluster guarded, if those that are struck belong to a task that
may end cancelled. -/
theorem Guarded.reframe (h : Guarded hears c) (hsound : Sound P keys goals c) {task : Task}
    (htask : c.tasks[number]? = some task) {frames : List Frame}
    (hreframes : c.Reframes number following frames) (hspares : Spares hears c following)
    (hframes : ∀ frame ∈ frames, frames = [frame] ∧ frame.hearsToken = hears number ∧
      ∀ group, following.groups[frame.group]? = some group → Struck frame group →
        Excused (hears number) task) : Guarded hears following := by
  refine h.retask hsound hreframes (fun _ _ ↦ ⟨rfl, rfl, id, .inl rfl⟩) hspares ?_ ?_
  · intro found hfound frame hframe
    rw [htask] at hfound
    cases hfound
    exact hframes frame hframe
  · exact fun found hfound hgot ↦ h.answers number found hfound hgot

/-- Nothing is forwarded, so no task has a second frame. -/
theorem Guarded.single (h : Guarded hears c) {task : Task} (htask : c.tasks[number]? = some task)
    {depth : Nat} {frame : Frame} (hframe : task.frames[depth]? = some frame) :
    depth = 0 ∧ task.frames = [frame] := by
  obtain ⟨honly, -⟩ := h.frames number task htask frame (List.mem_of_getElem? hframe)
  rw [honly] at hframe
  cases depth with
  | zero => exact ⟨rfl, honly⟩
  | succ depth => cases hframe

/-- A turn that endangers nobody keeps the cluster guarded. -/
theorem Guarded.turn (h : Guarded hears c) (hsound : Sound P keys goals c) {action : Action}
    (hcontract : Contract c action) (hsafe : ¬Endangers c action) {task : Task} {frame : Frame}
    {outer : List Frame} {group after : Group} {stage : FrameStage}
    (htask : c.tasks[number]? = some task) (hframes : task.frames = frame :: outer)
    (hgroup : c.groups[frame.group]? = some group)
    (turn : Turn c number task frame group action stage after)
    (hreframes : c.Reframes number following ({ frame with stage } :: outer))
    (hgroups : following.groups = c.groups.setIfInBounds frame.group after) :
    Guarded hears following := by
  obtain ⟨honly, hhears, hexcused⟩ :=
    h.frames number task htask frame (hframes ▸ List.mem_cons_self)
  obtain rfl : outer = [] := (List.cons.inj (hframes.symm.trans honly)).2
  refine h.reframe hsound htask hreframes (spares_setGroup hgroup hgroups ?_) ?_
  · intro flight hlanded
    refine (turn.lands hlanded).imp_right ?_
    rintro ⟨haction, hleading⟩ waiter waiting found hwaiter hfound hindex hwaits
    -- a live get that waits on the flight would be endangered
    by_contra hlive
    simp only [Excused, not_or, not_not] at hlive
    obtain ⟨hpurpose, hdeadline, hunfired⟩ := hlive
    have hheard := (h.frames waiter waiting hwaiter found (hfound ▸ List.mem_cons_self)).2.1
    exact hsafe ⟨number, frame, group, flight, waiter, waiting, found, haction,
      ⟨task, [], htask, hframes, hgroup⟩, hleading, hwaiter, hpurpose, hdeadline, hfound, hindex,
      hwaits, hheard ▸ hunfired⟩
  · intro moved hmoved
    rw [List.mem_singleton.1 hmoved]
    refine ⟨rfl, hhears, ?_⟩
    intro found hfound hstruck
    rw [hgroups, Array.getElem?_setIfInBounds_self_of_lt
      (Array.getElem?_eq_some_iff.1 hgroup).1] at hfound
    cases hfound
    rcases turn.struck (hsound.groups frame.group group hgroup) hcontract htask hframes hstruck
      with hbefore | hfired
    · exact hexcused group hgroup hbefore
    · exact .inr (.inr (hhears ▸ hfired))

/-- A frame that notices its token keeps the cluster guarded. -/
theorem Guarded.heeded (h : Guarded hears c) (hsound : Sound P keys goals c) {task : Task}
    (htask : c.tasks[number]? = some task) {depth : Nat} {frame : Frame}
    (hframe : task.frames[depth]? = some frame) (hcancelled : task.cancelled = true)
    (hhears : frame.hearsToken = true)
    (hreframes : c.Reframes number following
      ({ frame with stage := .answered (.error .cancelled) } :: task.frames.drop (depth + 1)))
    (hgroups : following.groups = (c.abandon (task.frames.take (depth + 1))).groups) :
    Guarded hears following := by
  obtain ⟨rfl, hframes⟩ := h.single htask hframe
  have hheard := (h.frames number task htask frame (List.mem_of_getElem? hframe)).2.1
  refine h.reframe hsound htask hreframes (spares_abandon _ hgroups) ?_
  intro moved hmoved
  rw [hframes] at hmoved ⊢
  rw [List.mem_singleton.1 hmoved]
  exact ⟨rfl, hheard, fun _ _ _ ↦ .inr (.inr ⟨hcancelled, hheard ▸ hhears⟩)⟩

/-- A task that is over keeps the cluster guarded, if it ends cancelled only where it may. -/
theorem Guarded.ended (h : Guarded hears c) (hsound : Sound P keys goals c) {task : Task}
    (htask : c.tasks[number]? = some task) {change : Task → Task}
    (hretasks : c.Retasks number following change)
    (hcontinues : Continues c.now task (change task)) (hspares : Spares hears c following)
    (hframes : (change task).frames = [])
    (hanswer : (change task).answer = some (.got (.error .cancelled)) →
      Excused (hears number) task) : Guarded hears following := by
  refine h.retask hsound hretasks ?_ hspares ?_ ?_
  · intro found hfound
    rw [htask] at hfound
    cases hfound
    exact hcontinues
  · intro found hfound frame hframe
    rw [htask] at hfound
    cases hfound
    rw [hframes] at hframe
    cases hframe
  · intro found hfound
    rw [htask] at hfound
    cases hfound
    exact hanswer

/-- Every move that endangers nobody keeps the cluster guarded, and the gets there were hear the
tokens that they heard. -/
theorem Guarded.move {action : Action} (h : Guarded hears c) (hsound : Sound P keys goals c)
    (hcontract : Contract c action) (hsafe : ¬Endangers c action)
    (move : Move c action following) :
    ∃ hears', Guarded hears' following ∧ ∀ number < c.tasks.size, hears' number = hears number := by
  have hsame : Guarded hears following →
      ∃ hears', Guarded hears' following ∧
        ∀ number < c.tasks.size, hears' number = hears number :=
    fun hguarded ↦ ⟨hears, hguarded, fun _ _ ↦ rfl⟩
  have hpushed : ∀ hearsToken : Bool,
      Guarded (Function.update hears c.tasks.size hearsToken) following →
      ∃ hears', Guarded hears' following ∧
        ∀ number < c.tasks.size, hears' number = hears number :=
    fun _ hguarded ↦ ⟨_, hguarded, fun _ hlt ↦ Function.update_of_ne (Nat.ne_of_lt hlt) _ _⟩
  cases move with
  | turned number task frame outer group _ stage after following htask hframes hgroup hturn
      hreframes hgroups =>
      exact hsame (h.turn hsound hcontract hsafe htask hframes hgroup hturn hreframes hgroups)
  | forwarded number task frame outer group served flight home peer sharesToken node target
      following htask hframes hgroup hstage hpeek hhome hpick hcarrier hroute hserved hreframes
      hgroups =>
      exact absurd hcarrier (h.carriers frame.node home hhome sharesToken)
  | handed number task frame parent outer group outcome flight peer following htask hframes
      hstage hparent hgroup hreframes hgroups =>
      have hsecond : task.frames[1]? = some parent := by rw [hframes]; rfl
      exact absurd (h.single htask hsecond).1 (by simp)
  | popped number task frame outer outcome following htask hframes hstage hreframes hgroups =>
      have hfirst : task.frames[0]? = some frame := by rw [hframes]; rfl
      obtain rfl : outer = [] :=
        (List.cons.inj (hframes.symm.trans (h.single htask hfirst).2)).2
      exact hsame (h.reframe hsound htask hreframes (spares_of_eq hgroups) fun _ hmem ↦
        nomatch hmem)
  | finished number task frame outcome following htask hframes hstage hretasks hgroups =>
      refine hsame (h.ended hsound htask hretasks ⟨rfl, rfl, id, .inr ⟨outcome, rfl⟩⟩
        (spares_of_eq hgroups) rfl ?_)
      intro hgot
      have hmem : frame ∈ task.frames := hframes ▸ List.mem_cons_self
      obtain ⟨group, hgroup, -⟩ := hsound.frames number task htask frame hmem
      refine (h.frames number task htask frame hmem).2.2 group hgroup (.inl ?_)
      rw [hstage, (Purpose.eq_of_answer (Option.some.inj hgot)).2]
  | heeded number depth task frame following htask hframe hcancelled hhears hawaits hreframes
      hgroups =>
      exact hsame (h.heeded hsound htask hframe hcancelled hhears hreframes hgroups)
  | brokeOff number depth reason task frame flight peer group following htask hframe hstage hgroup
      hreframes hgroups =>
      exact absurd (h.single htask hframe).1 (by simp)
  | expired number task deadline following htask hpending hdeadline hdue hretasks hgroups =>
      refine hsame (h.ended hsound htask hretasks ⟨rfl, rfl, id, .inr ⟨.error .cancelled, rfl⟩⟩
        (spares_abandon _ hgroups) rfl ?_)
      exact fun _ ↦ .inr (.inl (by simp [hdeadline]))
  | dropped number task following htask hpending hretasks hgroups =>
      exact hsame (h.ended hsound htask hretasks ⟨rfl, rfl, id, .inl rfl⟩
        (spares_abandon _ hgroups) rfl fun hgot ↦ h.answers number task htask hgot)
  | fired number =>
      have hretasks : c.Retasks number (c.cancel number) fun t ↦ { t with cancelled := true } :=
        ⟨rfl, rfl, rfl⟩
      refine hsame (h.retask hsound hretasks ?_ (spares_of_eq rfl) ?_ ?_)
      · exact fun _ _ ↦ ⟨rfl, rfl, fun _ ↦ rfl, .inl rfl⟩
      · exact fun task htask ↦ h.frames number task htask
      · exact fun task htask ↦ h.answers number task htask
  | asked node index key hearsToken cancelled timeout group hgroup =>
      exact hpushed hearsToken (h.begin node index key .get hearsToken cancelled _)
  | requested node method path name key index group deadline hgroup =>
      have hcounted : Guarded hears (c.setGroup index group.recordServerRequest) :=
        h.around hsound rfl (spares_setGroup hgroup rfl fun _ hlanded ↦ .inl hlanded) h.carriers
      exact hpushed false (hcounted.begin node index key (.serve name key) false false deadline)
  | responded node method path response =>
      have htasks : (c.respond response).2.tasks = c.tasks.push _ := rfl
      exact hpushed false
        (h.push htasks rfl rfl (fun _ hframe ↦ nomatch hframe) fun hserved ↦ nomatch hserved)
  | removed index key group hgroup =>
      exact hsame (h.around hsound rfl
        (spares_setGroup hgroup rfl fun _ hlanded ↦ .inl hlanded) h.carriers)
  | cleared index group hgroup =>
      exact hsame (h.around hsound rfl
        (spares_setGroup hgroup rfl fun _ hlanded ↦ .inl hlanded) h.carriers)
  | added membership carrier basePath requestTimeout =>
      refine hsame (h.around hsound rfl (spares_of_eq rfl) ?_)
      intro index node hnode
      rcases cases_addNode hnode with rfl | hnode
      · exact hcontract
      · exact h.carriers index node hnode
  | created node name settings =>
      refine hsame (h.around hsound rfl ?_ ?_)
      · intro index after flight hafter hlanded
        simp only [modifyNode, Array.getElem?_push] at hafter
        split at hafter
        · cases hafter
          cases hlanded
        · exact .inl ⟨after, hafter, hlanded⟩
      · intro index found hfound sharesToken
        rcases cases_modifyNode hfound with ⟨before, hbefore, rfl⟩ | hfound
        · exact h.carriers index before hbefore sharesToken
        · exact h.carriers index found hfound sharesToken
  | rewired _ node change hchange =>
      refine hsame (h.around hsound rfl (spares_of_eq rfl) ?_)
      intro index found hfound sharesToken
      rcases cases_modifyNode hfound with ⟨before, hbefore, rfl⟩ | hfound
      · rw [(hchange before).1]
        exact h.carriers index before hbefore sharesToken
      · exact h.carriers index found hfound sharesToken
  | stayed _ _ hgroups htasks hnodes =>
      exact hsame (h.around hsound htasks (spares_of_eq hgroups) (hnodes ▸ h.carriers))

/-! ## Runs -/

/-- Actions that keep the contract and endanger nobody. -/
def Careful (c : Cluster) (action : Action) : Prop :=
  Contract c action ∧ ¬Endangers c action

/-- A cluster without nodes is guarded. -/
theorem guarded_empty (hears : Nat → Bool) : Guarded hears empty :=
  ⟨by simp [empty], by simp [empty], by simp [empty]⟩

/-- A careful run keeps the cluster guarded. -/
theorem Runs.guarded (hsound : Sound anyOutcome keys goals c) (h : Guarded hears c)
    (run : Runs Careful c following) :
    (∃ keys' goals', Sound anyOutcome keys' goals' following) ∧
      c.tasks.size ≤ following.tasks.size ∧
      ∃ hears', Guarded hears' following ∧
        ∀ number < c.tasks.size, hears' number = hears number := by
  induction run with
  | here => exact ⟨⟨keys, goals, hsound⟩, Nat.le_refl _, hears, h, fun _ _ ↦ rfl⟩
  | next run hcareful hact ih =>
      obtain ⟨⟨keys', goals', hsound'⟩, hsize, hears', hguarded, hsame⟩ := ih
      have hmove := act?_move hact
      obtain ⟨keys'', goals'', hsound'', -⟩ :=
        hsound'.move lenient_anyOutcome (allows_anyOutcome _ _) hmove
      obtain ⟨hears'', hguarded', hsame'⟩ :=
        hguarded.move hsound' hcareful.1 hcareful.2 hmove
      refine ⟨⟨keys'', goals'', hsound''⟩, Nat.le_trans hsize hmove.size_le, hears'', hguarded', ?_⟩
      intro number hlt
      exact (hsame' number (Nat.lt_of_lt_of_le hlt hsize)).trans (hsame number hlt)

/-- In a careful run a get that ends cancelled had a token that fired. -/
theorem Runs.cancelled_fired {node index : Nat} {key : String} {hearsToken cancelled : Bool}
    {group : Group} (hbefore : Runs Careful empty c) (hgroup : c.groups[index]? = some group)
    (hafter : Runs Careful (c.get node index key hearsToken cancelled none).2 following)
    (hanswer : following.answer? c.tasks.size = some (.got (.error .cancelled))) :
    hearsToken = true ∧ ∃ task, following.tasks[c.tasks.size]? = some task ∧
      task.cancelled = true := by
  obtain ⟨⟨keys, goals, hsound⟩, -, hears, hguarded, -⟩ := hbefore.guarded
    (sound_empty anyOutcome (fun _ _ ↦ "") fun _ ↦ ("", "")) (guarded_empty fun _ ↦ false)
  have hbegun := hsound.begin hgroup node key .get hearsToken cancelled none
  obtain ⟨-, -, hears', hguarded', hsame⟩ :=
    hafter.guarded hbegun (hguarded.begin node index key .get hearsToken cancelled none)
  have htask : (c.get node index key hearsToken cancelled none).2.tasks[c.tasks.size]? = some
      { purpose := .get, cancelled, deadline := none
        frames := [{ node, group := index, key, hearsToken, stage := .asked }]
        answer := none, dropped := false } := Array.getElem?_push_size
  obtain ⟨task, hlast, hpurpose, hdeadline, -⟩ := hafter.continues htask rfl
  obtain ⟨found, hfound, hgot⟩ := Option.bind_eq_some_iff.1 hanswer
  rw [hlast] at hfound
  cases hfound
  have hhears : hears' c.tasks.size = hearsToken := by
    rw [hsame c.tasks.size (by simp [Cluster.begin]), Function.update_self]
  rcases hguarded'.answers c.tasks.size task hlast hgot with hother | htimed | ⟨hfired, hheard⟩
  · exact absurd hpurpose hother
  · exact absurd hdeadline htimed
  · exact ⟨hhears ▸ hheard, task, hlast, hfired⟩

/-! ## What a landing does to those that wait -/

section

variable {task : Task} {frame : Frame} {outer : List Frame} {group : Group}

/-- A leader whose work is done lands its flight. -/
theorem step_lands {flight : Nat} {outcome : Outcome} (htask : c.tasks[number]? = some task)
    (hframes : task.frames = frame :: outer) (hgroup : c.groups[frame.group]? = some group)
    (hstage : frame.stage = .leading flight (.done outcome)) :
    ∃ following, c.act? (.step number) = some following ∧
      c.Reframes number following ({ frame with stage := .answered outcome } :: outer) ∧
      following.groups[frame.group]? =
        some { group with flights := group.flights.land frame.key flight outcome } := by
  refine ⟨c.land number frame outer group flight outcome, ?_, ⟨rfl, rfl, rfl⟩, ?_⟩
  · simp [act?, step?, htask, hframes, hgroup, hstage]
  · exact Array.getElem?_setIfInBounds_self_of_lt (Array.getElem?_eq_some_iff.1 hgroup).1

/-- A call takes the outcome of the flight that it waits on. -/
theorem step_takes {flight : Nat} {outcome : Outcome} (htask : c.tasks[number]? = some task)
    (hframes : task.frames = frame :: outer) (hgroup : c.groups[frame.group]? = some group)
    (hstage : frame.stage = .waiting flight)
    (hlanded : group.flights.flights[flight]? = some (.landed outcome)) :
    ∃ following, c.act? (.step number) = some following ∧
      c.Reframes number following ({ frame with stage := .answered outcome } :: outer) ∧
      following.groups = c.groups := by
  refine ⟨c.setFrames number ({ frame with stage := .answered outcome } :: outer), ?_,
    ⟨rfl, rfl, rfl⟩, rfl⟩
  simp [act?, step?, htask, hframes, hgroup, hstage, FlightTable.status_eq_landed.2 hlanded]

/-- A task whose only frame has an outcome is finished with it. -/
theorem step_finishes {outcome : Outcome} (htask : c.tasks[number]? = some task)
    (hframes : task.frames = [frame]) (hgroup : c.groups[frame.group]? = some group)
    (hstage : frame.stage = .answered outcome) :
    ∃ following, c.act? (.step number) = some following ∧ following.tasks[number]? =
      some { task with answer := some (task.purpose.answer c.now outcome), frames := [] } := by
  refine ⟨c.finish number outcome, ?_, (finish_spec outcome htask).1.getElem? htask⟩
  simp [act?, step?, htask, hframes, hgroup, hstage, handOn]

end

/-- A get that waits is not the one that leads. -/
theorem LiveWaiter.ne {waiter flight index : Nat} {task leading : Task} {frame waiting : Frame}
    {outer : List Frame} {errand : Errand} {led : Nat}
    (hlive : c.LiveWaiter waiter task waiting index flight)
    (hleading : c.tasks[number]? = some leading) (hframes : leading.frames = frame :: outer)
    (hstage : frame.stage = .leading led errand) : number ≠ waiter := by
  rintro rfl
  obtain ⟨hwaiter, -, -, hwaiting, -, hwaits, -⟩ := hlive
  rw [hleading] at hwaiter
  cases hwaiter
  rw [hframes] at hwaiting
  cases hwaiting
  rw [hstage] at hwaits
  cases hwaits

/-- Wherever a leader is about to land a cancellation while a live get waits on its flight, that get
can end cancelled. -/
theorem LiveWaiter.cancelled {waiter flight : Nat} {task : Task} {frame waiting : Frame}
    {group : Group} (hsound : Sound P keys goals c) (hinner : c.Innermost number frame group)
    (hstage : frame.stage = .leading flight (.done (.error .cancelled)))
    (hlive : c.LiveWaiter waiter task waiting frame.group flight) :
    ∃ last, Runs Contract c last ∧ last.tasks[waiter]? =
      some { task with answer := some (.got (.error .cancelled)), frames := [] } := by
  obtain ⟨leading, outer, hleading, hframes, hgroup⟩ := hinner
  obtain ⟨hwaiter, hpurpose, -, hwaiting, hindex, hwaits, -⟩ := id hlive
  obtain ⟨-, -, hfits⟩ := hsound.fits hleading (hframes ▸ List.mem_cons_self) hgroup
  rw [hstage] at hfits
  have hne : number ≠ waiter := hlive.ne hleading hframes hstage
  have hfree : ∀ (c : Cluster) (task : Nat), Contract c (.step task) := fun _ _ ↦ trivial
  -- the leader lands its flight, the get takes the outcome, and hands it to its owner
  obtain ⟨landed, hlands, hland, hgroup'⟩ := step_lands hleading hframes hgroup hstage
  rw [← hindex] at hgroup'
  have hwaiter' := (hland.getElem?_ne hne).trans hwaiter
  have hlanded : (group.flights.land frame.key flight (.error .cancelled)).flights[flight]? =
      some (.landed (.error .cancelled)) := Array.getElem?_setIfInBounds_self_of_lt hfits.1.1
  obtain ⟨taken, htakes, htake, hgroups⟩ :=
    step_takes hwaiter' hwaiting hgroup' hwaits hlanded
  obtain ⟨last, hfinishes, hlast⟩ :=
    step_finishes (htake.getElem? hwaiter') rfl (hgroups ▸ hgroup') rfl
  refine ⟨last, ((Runs.here.next (hfree _ _) hlands).next (hfree _ _) htakes).next (hfree _ _)
    hfinishes, ?_⟩
  rw [hlast, hpurpose]
  rfl

/-- A call whose flight was lost leads a new one if its key has no record. -/
theorem step_leads {task : Task} {frame : Frame} {outer : List Frame} {group : Group}
    {flight : Nat} (htask : c.tasks[number]? = some task)
    (hframes : task.frames = frame :: outer) (hgroup : c.groups[frame.group]? = some group)
    (hstage : frame.stage = .waiting flight) (hlost : group.flights.status flight = .lost)
    (hfree : ∀ other, (frame.key, other) ∉ group.flights.records) :
    ∃ following, c.act? (.step number) = some following ∧
      c.Reframes number following
        ({ frame with stage := .leading group.flights.flights.size .recheck } :: outer) := by
  refine ⟨c.enter number frame outer group, ?_, ?_⟩
  · simp [act?, step?, htask, hframes, hgroup, hstage, hlost]
  · unfold enter
    rcases group.flights.enter_cases frame.key with ⟨other, hmem, -⟩ | ⟨-, henter⟩
    · exact absurd hmem (hfree other)
    · rw [henter]
      exact ⟨rfl, rfl, rfl⟩

/-- Where the leader notices first that its token fired, its flight is lost, and a get that waits on
it leads a new one when it goes on. -/
theorem LiveWaiter.relieved {waiter flight : Nat} {task : Task} {frame waiting : Frame}
    {group : Group} {errand : Errand} (hsound : Sound P keys goals c)
    (hinner : c.Innermost number frame group) (hstage : frame.stage = .leading flight errand)
    (hheed : c.act? (.heed number 0) = some following)
    (hlive : c.LiveWaiter waiter task waiting frame.group flight) :
    ∃ next, following.act? (.step waiter) = some next ∧ next.tasks[waiter]? =
      some { task with
        frames := [{ waiting with stage := .leading group.flights.flights.size .recheck }] } := by
  obtain ⟨leading, outer, hleading, hframes, hgroup⟩ := hinner
  obtain ⟨hwaiter, -, -, hwaiting, hindex, hwaits, -⟩ := id hlive
  obtain ⟨-, -, hfits⟩ := hsound.fits hleading (hframes ▸ List.mem_cons_self) hgroup
  rw [hstage] at hfits
  have hmem : waiting ∈ task.frames := hwaiting ▸ List.mem_cons_self
  obtain ⟨-, -, hfits'⟩ := hsound.fits hwaiter hmem (hindex ▸ hgroup)
  rw [hwaits, hindex] at hfits'
  have hkey : waiting.key = frame.key := hfits'.2.symm.trans hfits.1.2
  have hne : number ≠ waiter := hlive.ne hleading hframes hstage
  simp only [act?, heed?, hleading, hframes, bind, Option.bind_some, List.getElem?_cons_zero]
    at hheed
  split at hheed
  · cases hheed
    have hgroup' : (c.abandon [frame]).groups[waiting.group]? = some
        { group with flights := group.flights.lose frame.key flight } := by
      simp only [abandon, List.foldl_cons, List.foldl_nil, hstage, hgroup, hindex]
      exact Array.getElem?_setIfInBounds_self_of_lt (Array.getElem?_eq_some_iff.1 hgroup).1
    have hwaiter' : ((c.abandon [frame]).setFrames number
        ({ frame with stage := .answered (.error .cancelled) } :: outer)).tasks[waiter]? =
          some task := by
      simp [setFrames, modifyTask, Array.getElem?_modify, hne, hwaiter]
    have hlost : (group.flights.lose frame.key flight).status flight = .lost := by
      simp [FlightTable.status, FlightTable.lose, FlightTable.settle, hfits.1.1]
    obtain ⟨next, hleads, hlead⟩ := step_leads hwaiter' hwaiting hgroup' hwaits hlost
      fun other hmem ↦ (FlightTable.mem_records_erase.1 hmem).2 hkey
    refine ⟨next, hleads, ?_⟩
    rw [hlead.getElem? hwaiter']
    simp [FlightTable.lose, FlightTable.settle]
  · cases hheed

/-! ## Isolation -/

/-- Take the clusters that a run leads to in which peers keep the contract. As long as no leader
lands a cancellation while a live get waits on its flight, a get is cancelled only if its own token
fired. Wherever one is about to, that get can end cancelled. Where the leader notices first that its
token fired, a get that waits on its flight leads a new one. -/
theorem cancellation_isolated (c : Cluster) :
    (∀ (last : Cluster) (node index : Nat) (key : String) (hearsToken cancelled : Bool)
      (group : Group), Runs Careful empty c → c.groups[index]? = some group →
      Runs Careful (c.get node index key hearsToken cancelled none).2 last →
      last.answer? c.tasks.size = some (.got (.error .cancelled)) →
      hearsToken = true ∧ ∃ task, last.tasks[c.tasks.size]? = some task ∧ task.cancelled = true) ∧
    (∀ action : Action, Runs Contract empty c → Endangers c action →
      ∃ waiter task waiting index flight last, c.LiveWaiter waiter task waiting index flight ∧
        Runs Contract c last ∧ last.tasks[waiter]? =
          some { task with answer := some (.got (.error .cancelled)), frames := [] }) ∧
    (∀ (following : Cluster) (number flight waiter : Nat) (frame waiting : Frame)
      (group : Group) (errand : Errand) (task : Task), Runs Contract empty c →
      c.Innermost number frame group → frame.stage = .leading flight errand →
      c.act? (.heed number 0) = some following →
      c.LiveWaiter waiter task waiting frame.group flight →
      ∃ next, following.act? (.step waiter) = some next ∧ next.tasks[waiter]? =
        some { task with
          frames :=
            [{ waiting with stage := .leading group.flights.flights.size .recheck }] }) := by
  have hsound : Runs Contract empty c → ∃ keys goals, Sound anyOutcome keys goals c := by
    intro run
    obtain ⟨keys, goals, hsound, -⟩ := run.sound lenient_anyOutcome
      (fun c action _ ↦ allows_anyOutcome c action)
      (sound_empty anyOutcome (fun _ _ ↦ "") fun _ ↦ ("", ""))
    exact ⟨keys, goals, hsound⟩
  refine ⟨?_, ?_, ?_⟩
  · intro last node index key hearsToken cancelled group hbefore hgroup hafter hanswer
    exact hbefore.cancelled_fired hgroup hafter hanswer
  · intro action run h
    obtain ⟨keys, goals, hsound⟩ := hsound run
    obtain ⟨number, frame, group, flight, waiter, task, waiting, -, hinner, hstage, hlive⟩ := h
    obtain ⟨last, hruns, hlast⟩ := hlive.cancelled hsound hinner hstage
    exact ⟨waiter, task, waiting, frame.group, flight, last, hlive, hruns, hlast⟩
  · intro following number flight waiter frame waiting group errand task run hinner hstage hheed
      hlive
    obtain ⟨keys, goals, hsound⟩ := hsound run
    exact hlive.relieved hsound hinner hstage hheed

/-- A node with a group whose peer, the owner of every key, is outside. -/
def outpost : Cluster :=
  (empty.actAll?
    [.join (.alone "a" 1 fun _ ↦ 0) .external "/" 1000, .create 0 "g" .default,
      .changePeers 0 (.set ["b"])]).get (by decide +kernel)

/-- A get that its group refuses, as its token fired before it began. -/
def refused : Cluster :=
  ((outpost.get 0 0 "k" true true none).2.act? (.step 0)).get (by decide +kernel)

/-- A get that fetches a key, its token fired, and a second one that waits on its flight. -/
def twoGets : Cluster :=
  (outpost.actAll?
    [.get 0 0 "k" true false none, .get 0 0 "k" true false none, .step 0, .step 0, .step 0,
      .step 1, .step 1, .cancel 0]).get (by decide +kernel)

/-- The peer has answered the first get that it was cancelled. -/
def endangered : Cluster :=
  (twoGets.act? (.answerFetch 0 (.error .cancelled))).get (by decide +kernel)

theorem runs_twoGets : Runs Contract empty twoGets := by
  have houtpost : Runs Contract empty outpost :=
    Runs.here.actAll (by simp [Contract]) (Option.some_get _).symm
  exact houtpost.actAll (by simp [Contract]) (Option.some_get _).symm

/-- The peer answers so only after the token that it was given has fired. -/
theorem runs_endangered : Runs Contract empty endangered := by
  refine runs_twoGets.next ?_ (Option.some_get _).symm
  exact fun _ ↦ ⟨_, _, _, rfl, rfl, rfl, rfl⟩

/-- A step of a task that leads nothing is careful. -/
theorem careful_step {task : Task} {frame : Frame} {outer : List Frame}
    (htask : c.tasks[number]? = some task) (hframes : task.frames = frame :: outer)
    (hstage : ∀ flight errand, frame.stage ≠ .leading flight errand) :
    Careful c (.step number) := by
  refine ⟨trivial, ?_⟩
  rintro ⟨other, found, group, flight, _, _, _, haction, ⟨leading, rest, hleading, hfound, -⟩,
    hleads, -⟩
  cases haction
  rw [htask] at hleading
  cases hleading
  rw [hframes] at hfound
  cases hfound
  exact hstage _ _ hleads

/-- A get with a token that fired before it ends cancelled, the second of the two gets can, and it
leads a new flight if the first one notices its token. -/
theorem isolation_of_two :
    (∃ last, Runs Careful (outpost.get 0 0 "k" true true none).2 last ∧
      last.answer? 0 = some (.got (.error .cancelled)) ∧
      ∃ task, last.tasks[0]? = some task ∧ task.cancelled = true) ∧
    (∃ waiter task waiting index flight last,
      endangered.LiveWaiter waiter task waiting index flight ∧ Runs Contract endangered last ∧
      last.tasks[waiter]? =
        some { task with answer := some (.got (.error .cancelled)), frames := [] }) ∧
    ∃ heeded next task, twoGets.act? (.heed 0 0) = some heeded ∧
      heeded.act? (.step 1) = some next ∧ next.tasks[1]? = some task ∧
      task.frames = [⟨0, 0, "k", true, .leading 1 .recheck⟩] := by
  refine ⟨?_, ?_, ?_⟩
  · have hbefore : Runs Careful empty outpost :=
      Runs.here.actAll (by simp [Careful, Contract, Endangers]) (Option.some_get _).symm
    have hasked : Careful (outpost.get 0 0 "k" true true none).2 (.step 0) :=
      careful_step rfl rfl (by simp)
    have hrefused : Careful refused (.step 0) := careful_step rfl rfl (by simp)
    have hafter := (Runs.here.next hasked (Option.some_get _).symm).next hrefused rfl
    have hfired :=
      (cancellation_isolated outpost).1 _ 0 0 "k" true true _ hbefore rfl hafter rfl
    exact ⟨_, hafter, rfl, hfired.2⟩
  · have hlive : endangered.LiveWaiter 1 _ _ 0 0 :=
      ⟨rfl, rfl, rfl, rfl, rfl, rfl, by decide +kernel⟩
    exact (cancellation_isolated endangered).2.1 (.step 0) runs_endangered
      ⟨0, _, _, 0, 1, _, _, rfl, ⟨_, _, rfl, rfl, rfl⟩, rfl, hlive⟩
  · obtain ⟨next, hnext, hleads⟩ := (cancellation_isolated twoGets).2.2 _ 0 0 1 _ _ _ _ _
      runs_twoGets ⟨_, _, rfl, rfl, rfl⟩ rfl rfl ⟨rfl, rfl, rfl, rfl, rfl, rfl, by decide +kernel⟩
    exact ⟨_, next, _, rfl, hnext, hleads, rfl⟩

/-- A get is cancelled though its token never fired. -/
theorem live_get_cancelled : ∃ last task, Runs Contract empty last ∧ last.tasks[1]? = some task ∧
    task.purpose = .get ∧ task.deadline = none ∧ task.cancelled = false ∧
    task.answer = some (.got (.error .cancelled)) :=
  ⟨(endangered.actAll? [.step 0, .step 1, .step 1]).get (by decide +kernel), _,
    runs_endangered.actAll (by simp [Contract]) (Option.some_get _).symm, rfl, rfl, rfl, rfl, rfl⟩

end Cluster

end ReadThrough
