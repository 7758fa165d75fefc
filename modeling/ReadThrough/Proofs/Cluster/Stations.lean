import ReadThrough.Cluster.Session
import ReadThrough.Proofs.Cluster.Crews

/-!
# Stations

On a node that fetches nothing, a get has one frame and works with its own group, the source of
that group, and the call that it made to that source. `Station` has just these, with a transition of
its own (`Station.step?`), and `stepTask?_at` says that a transition of the whole simulation is that
of one station, put back in its place. Gates only matter here in that none of them is open: what
waits at a gate waits until its loader answers from outside.
-/

namespace ReadThrough

/-- What a get that is under way works with. -/
structure Station where
  group : Group
  source : Source
  call : Option (Progress LoadFault)
  key : String
  hearsToken : Bool
  cancelled : Bool
  deadline : Option Millis
  stage : FrameStage

/-- What becomes of a get. -/
inductive Fate where
  | onward (stage : FrameStage)
  | ended (outcome : Outcome)
  | dropped

/-- What a transition of a get leaves, and the events that it records. -/
structure Deed where
  group : Group
  source : Source
  call : Option (Progress LoadFault)
  events : List Event
  fate : Fate

/-- The part of a reaction after its delay. -/
def Reaction.delayed {F : Type} (reaction : Reaction F) : Progress F :=
  match reaction.gate with
  | none => .ready reaction
  | some name => .queued name reaction

/-- The beginning of a reaction. -/
def Reaction.begun {F : Type} (reaction : Reaction F) (now : Millis) : Progress F :=
  if reaction.delay = 0 then reaction.delayed else .sleeping (now + reaction.delay) reaction

namespace Station

variable (st : Station) (now : Millis) (node : String)

/-- The only frame of the get. -/
def frame (number : Nat) : Frame :=
  { node := 0, group := number, key := st.key, hearsToken := st.hearsToken, stage := st.stage }

/-- The task of the get. -/
def task (number : Nat) : Task :=
  { purpose := .get, cancelled := st.cancelled, deadline := st.deadline
    frames := [st.frame number], answer := none, dropped := false }

/-- The group once the get is given up. -/
def left : Group :=
  match st.stage with
  | .leading flight _ => { st.group with flights := st.group.flights.lose st.key flight }
  | _ => st.group

/-- The get goes on to another stage. -/
def onward (group : Group) (events : List Event) (stage : FrameStage) : Deed :=
  { group, source := st.source, call := st.call, events, fate := .onward stage }

/-- The get is given up. -/
def giveUp (fate : Fate) : Deed :=
  { group := st.left, source := st.source, call := none, events := [], fate }

/-- The get asks the flight table for its key. -/
def enter : Deed :=
  let (role, flights) := st.group.flights.enter st.key
  st.onward { st.group with flights } []
    (match role with
    | .wait flight => .waiting flight
    | .lead flight => .leading flight .recheck)

/-- The get notices that its token fired. -/
def heed? : Option Deed :=
  if st.cancelled && st.hearsToken && st.stage.awaits then
    some (st.giveUp (.onward (.answered (.error .cancelled))))
  else none

/-- One transition of the get by itself. -/
def move? : Option Deed :=
  match st.stage with
  | .asked =>
      match st.group.consult st.key now (st.hearsToken && st.cancelled) with
      | (some outcome, after) =>
          let events :=
            match outcome, st.group.cache.tierOf st.key now with
            | .ok _, some tier => [Event.hit st.group.name st.key tier]
            | _, _ => []
          some (st.onward after events (.answered outcome))
      | (none, after) => some (st.onward after [] .missed)
  | .missed => some st.enter
  | .waiting flight =>
      match st.group.flights.status flight with
      | .landed outcome => some (st.onward st.group [] (.answered outcome))
      | .lost => some st.enter
      | .aloft => none
  | .leading flight .recheck =>
      match st.group.cache.peek st.key now with
      | some (value, _) => some (st.onward st.group [] (.leading flight (.done (.ok value))))
      | none =>
          some (st.onward st.group [.load node st.group.name st.key] (.leading flight .loading))
  | .leading _ (.fetching _) | .leading _ .loading => none
  | .leading flight (.done outcome) =>
      some (st.onward { st.group with flights := st.group.flights.land st.key flight outcome } []
        (.answered outcome))
  | .answered outcome =>
      some { group := st.group, source := st.source, call := st.call, events := []
             fate := .ended outcome }

/-- The answer of the loader that the get waits for. -/
def answer? (answer : LoadAnswer) : Option Deed :=
  match st.stage with
  | .leading flight .loading =>
      let (outcome, group) := st.group.takeLoaded st.key now answer
      let events :=
        match answer with
        | .error (.failed reason) => [Event.loadFailed st.group.name st.key reason]
        | _ => []
      some { group, source := st.source, call := none, events
             fate := .onward (.leading flight (.done outcome)) }
  | _ => none

/-- The get goes on with the call that it made. -/
def calling (call : Progress LoadFault) (source : Source) : Deed :=
  { group := st.group, source, call := some call, events := [], fate := .onward st.stage }

/-- The call of the get begins, or goes on, if it need not wait. -/
def call? : Option Deed :=
  match st.call with
  | none =>
      match st.stage, st.source with
      | .leading _ .loading, .files loader => st.answer? now (loader.load now st.key)
      | .leading _ .loading, .script script =>
          some (st.calling ((script.reaction st.key).begun now) (.script (script.use st.key)))
      | _, _ => none
  | some (.sleeping wake reaction) =>
      if wake ≤ now then some (st.calling reaction.delayed st.source) else none
  | some (.queued ..) => none
  | some (.ready reaction) => st.answer? now (reaction.answer st.key now)

/-- The time of the get is up. -/
def expire? : Option Deed :=
  match st.deadline with
  | none => none
  | some deadline =>
      if deadline ≤ now then some (st.giveUp (.ended (.error .cancelled))) else none

/-- One transition of the get. -/
def step? : Option Deed :=
  st.heed? <|> st.move? now node <|> st.call? now <|> st.expire? now

/-- The get after a transition, if it goes on. -/
def next? (deed : Deed) : Option Station :=
  match deed.fate with
  | .onward stage =>
      some { st with group := deed.group, source := deed.source, call := deed.call, stage }
  | .ended _ | .dropped => none

/-- One transition of the get by itself. Each case names the stage that the get is found in and what
makes the transition possible. -/
inductive Moves : Deed → Prop where
  | answered (outcome : Outcome) (after : Group) (events : List Event) :
      st.stage = .asked →
      st.group.consult st.key now (st.hearsToken && st.cancelled) = (some outcome, after) →
      (events = [] ∨ ∃ tier, events = [.hit st.group.name st.key tier]) →
      Moves (st.onward after events (.answered outcome))
  | missed (after : Group) :
      st.stage = .asked →
      st.group.consult st.key now (st.hearsToken && st.cancelled) = (none, after) →
      Moves (st.onward after [] .missed)
  | entered :
      (st.stage = .missed ∨
        ∃ flight, st.stage = .waiting flight ∧ st.group.flights.status flight = .lost) →
      Moves st.enter
  | took (flight : Nat) (outcome : Outcome) :
      st.stage = .waiting flight → st.group.flights.status flight = .landed outcome →
      Moves (st.onward st.group [] (.answered outcome))
  | found (flight : Nat) (value : Value) :
      st.stage = .leading flight .recheck →
      Moves (st.onward st.group [] (.leading flight (.done (.ok value))))
  | loads (flight : Nat) :
      st.stage = .leading flight .recheck →
      Moves (st.onward st.group [.load node st.group.name st.key] (.leading flight .loading))
  | landed (flight : Nat) (outcome : Outcome) :
      st.stage = .leading flight (.done outcome) →
      Moves (st.onward
        { st.group with flights := st.group.flights.land st.key flight outcome } []
        (.answered outcome))
  | finished (outcome : Outcome) :
      st.stage = .answered outcome →
      Moves
        { group := st.group, source := st.source, call := st.call, events := []
          fate := .ended outcome }

variable {st now node} {deed : Deed}

theorem move?_moves (h : st.move? now node = some deed) : st.Moves now node deed := by
  unfold move? at h
  split at h
  · next hstage =>
    split at h
    · next outcome after hconsult =>
      obtain rfl := Option.some.inj h
      refine .answered outcome after _ hstage hconsult ?_
      split
      · exact .inr ⟨_, rfl⟩
      · exact .inl rfl
    · next after hconsult =>
      obtain rfl := Option.some.inj h
      exact .missed after hstage hconsult
  · next hstage =>
    obtain rfl := Option.some.inj h
    exact .entered (.inl hstage)
  · next flight hstage =>
    split at h
    · next outcome hstatus =>
      obtain rfl := Option.some.inj h
      exact .took flight outcome hstage hstatus
    · next hstatus =>
      obtain rfl := Option.some.inj h
      exact .entered (.inr ⟨flight, hstage, hstatus⟩)
    · cases h
  · next flight hstage =>
    split at h
    · next value _ _ =>
      obtain rfl := Option.some.inj h
      exact .found flight value hstage
    · obtain rfl := Option.some.inj h
      exact .loads flight hstage
  · cases h
  · cases h
  · next flight outcome hstage =>
    obtain rfl := Option.some.inj h
    exact .landed flight outcome hstage
  · next outcome hstage =>
    obtain rfl := Option.some.inj h
    exact .finished outcome hstage

/-- A get that moves by itself keeps its source and its call, and waits for no loader. -/
theorem Moves.kept (h : st.Moves now node deed) :
    deed.source = st.source ∧ deed.call = st.call ∧
      ∀ flight, st.stage ≠ .leading flight .loading := by
  cases h with
  | answered _ _ _ hstage | missed _ hstage | took _ _ hstage | found _ _ hstage
  | loads _ hstage | landed _ _ hstage | finished _ hstage =>
      exact ⟨rfl, rfl, by simp [hstage]⟩
  | entered hstage =>
      refine ⟨rfl, rfl, ?_⟩
      rcases hstage with hstage | ⟨flight, hstage, -⟩ <;> simp [hstage]

end Station

/-- A get at a station has a call only while it waits for a loader, and fetches nothing. -/
structure Station.Fits (call : Option (Progress LoadFault)) (stage : FrameStage) : Prop where
  calling : call.isSome → ∃ flight, stage = .leading flight .loading
  here : ∀ flight peer, stage ≠ .leading flight (.fetching peer)

theorem Station.Fits.call_eq_none {call : Option (Progress LoadFault)} {stage : FrameStage}
    (h : Fits call stage) (hstage : ∀ flight, stage ≠ .leading flight .loading) : call = none := by
  cases hcall : call with
  | none => rfl
  | some progress =>
      obtain ⟨flight, hloading⟩ := h.calling (by rw [hcall]; rfl)
      exact absurd hloading (hstage flight)

/-- What becomes of the task of a get. -/
def Fate.apply : Fate → Task → Task
  | .onward stage, task => { task with frames := task.frames.map fun frame ↦ { frame with stage } }
  | .ended outcome, task => { task with answer := some (.got outcome), frames := [] }
  | .dropped, task => { task with dropped := true, frames := [] }

/-- A cluster in which a get has made a transition. -/
def Cluster.put (c : Cluster) (number index : Nat) (deed : Deed) : Cluster :=
  { c with
    groups := c.groups.setIfInBounds index deed.group
    tasks := c.tasks.modify number deed.fate.apply
    finished :=
      match deed.fate with
      | .ended _ => c.finished.push number
      | .onward _ | .dropped => c.finished
    events := c.events ++ deed.events.toArray }

namespace Simulation

/-- A simulation in which a get has made a transition. -/
def put (s : Simulation) (number index : Nat) (deed : Deed) : Simulation :=
  { s with
    cluster := s.cluster.put number index deed
    sources := s.sources.setIfInBounds index deed.source
    calls := (deed.call.map fun call ↦ (number, Outstanding.load call)).toList ++
      s.calls.filter fun call ↦ call.1 ≠ number }

/-- A simulation without what stands at its gates. -/
def ungated (s : Simulation) : Simulation :=
  { s with gates := [] }

/-- The name of the node. -/
def name (s : Simulation) : String :=
  (s.cluster.nodes[0]?.map Node.id).getD ""

/-- A get with its station. -/
structure At (s : Simulation) (number index : Nat) (st : Station) : Prop where
  task : s.cluster.tasks[number]? = some (st.task index)
  group : s.cluster.groups[index]? = some st.group
  source : s.sources[index]? = some st.source
  call : s.calls.lookup number = st.call.map .load
  fits : Station.Fits st.call st.stage

/-- The only node there is loads every key itself. -/
def Local (s : Simulation) : Prop :=
  ∃ node, s.cluster.nodes = #[node] ∧
    ∀ key peer, node.membership.pick key = .peer peer → node.carrier = .absent

/-- No gate lets anything through. -/
def Shut (s : Simulation) : Prop :=
  ∀ gate ∈ s.gates, gate.permits = 0 ∧ gate.granted = []

end Simulation

/-! ## Transitions of a cluster -/

namespace Cluster

variable {c : Cluster} {number index : Nat} {st : Station}

/-- What happens to one item depends on that item alone. -/
theorem modify_congr {α : Type} {items : Array α} {index : Nat} {item : α}
    {change other : α → α} (h : items[index]? = some item) (hsame : change item = other item) :
    items.modify index change = items.modify index other := by
  refine Array.ext_getElem? fun found ↦ ?_
  rw [Array.getElem?_modify, Array.getElem?_modify]
  split
  · next heq => rw [← heq, h, Option.map_some, Option.map_some, hsame]
  · rfl

/-- A change that changes nothing of an item leaves all items. -/
theorem modify_same {α : Type} {items : Array α} {index : Nat} {item : α} {change : α → α}
    (h : items[index]? = some item) (hsame : change item = item) :
    items.modify index change = items := by
  refine Array.ext_getElem? fun found ↦ ?_
  rw [Array.getElem?_modify]
  split
  · next heq => rw [← heq, h, Option.map_some, hsame]
  · rfl

section

variable (htask : c.tasks[number]? = some (st.task index))
include htask

theorem setFrames_station (stage : FrameStage) :
    c.setFrames number
        [{ node := 0, group := index, key := st.key, hearsToken := st.hearsToken, stage }] =
      { c with tasks := c.tasks.modify number (Fate.onward stage).apply } := by
  rw [setFrames, modifyTask, modify_congr htask]
  rfl

theorem finish_station (outcome : Outcome) :
    c.finish number outcome =
      { c with
        tasks := c.tasks.modify number (Fate.ended outcome).apply
        finished := c.finished.push number } := by
  rw [finish, htask]
  rfl

variable (hgroup : c.groups[index]? = some st.group)
include hgroup

omit htask in
theorem abandon_station : c.abandon [st.frame index] = c.setGroup index st.left := by
  cases hstage : st.stage with
  | leading flight errand => simp [abandon, Station.frame, Station.left, hstage, hgroup]
  | asked | missed | waiting | answered =>
      simp [abandon, Station.frame, Station.left, hstage, setGroup, setIfInBounds_same hgroup]

/-- A get notices its token at its station. -/
theorem heed?_station : c.heed? number 0 = st.heed?.map (c.put number index) := by
  simp only [heed?, htask, Station.heed?, bind, Option.bind_some, Station.task,
    List.getElem?_cons_zero]
  by_cases hheeds : (st.cancelled && st.hearsToken && st.stage.awaits) = true
  · have hframe : (st.cancelled && (st.frame index).hearsToken && (st.frame index).stage.awaits) =
        true := hheeds
    rw [if_pos hheeds, if_pos hframe, Option.map_some]
    simp only [List.take_succ_cons, List.take_zero, List.drop_succ_cons, List.drop_nil,
      abandon_station hgroup]
    simp only [Station.frame]
    rw [setFrames_station (by exact htask)]
    simp [put, Station.giveUp, setGroup]
  · have hframe : ¬(st.cancelled && (st.frame index).hearsToken && (st.frame index).stage.awaits) =
        true := hheeds
    rw [if_neg hheeds, if_neg hframe, Option.map_none]

/-- The time of a get is up at its station. -/
theorem expire?_station : c.expire? number = (st.expire? c.now).map (c.put number index) := by
  simp only [expire?, htask, Station.expire?, bind, Option.bind_some]
  cases hdeadline : st.deadline with
  | none => simp [Station.task, hdeadline]
  | some deadline =>
      have hpending : (st.task index).pending = true := rfl
      have htime : (st.task index).deadline = some deadline := hdeadline
      simp only [htime, hpending, Bool.true_and, decide_eq_true_eq, Option.bind_some]
      split
      · rw [Option.map_some, show (st.task index).frames = [st.frame index] from rfl,
          abandon_station hgroup, finish_station (by exact htask)]
        simp [put, Station.giveUp, setGroup]
      · rfl

/-- A get is given up at its station. -/
theorem drop_station : c.drop number = c.put number index (st.giveUp .dropped) := by
  have hpending : (st.task index).pending = true := rfl
  rw [drop, htask]
  simp only [hpending, if_true, show (st.task index).frames = [st.frame index] from rfl,
    abandon_station hgroup]
  simp [put, Station.giveUp, setGroup, modifyTask]
  rfl

/-- A loader answers a get at its station. -/
theorem answerLoad?_station (answer : LoadAnswer) :
    c.answerLoad? number answer = (st.answer? c.now answer).map (c.put number index) := by
  simp only [answerLoad?, htask, Station.answer?, bind, Option.bind_some, Station.task,
    Station.frame, hgroup]
  cases st.stage with
  | leading flight errand =>
      cases errand with
      | loading =>
          simp only [Option.map_some, conclude]
          split <;>
          · rw [setFrames_station (by exact htask)]
            simp [put, setGroup, record]
      | recheck | fetching | done => rfl
  | asked | missed | waiting | answered => rfl

omit hgroup in
/-- A get asks its flight table at its station. -/
theorem enter_station :
    c.enter number (st.frame index) [] st.group = c.put number index st.enter := by
  simp only [enter, Station.enter, Station.frame]
  rw [setFrames_station (by exact htask)]
  cases (st.group.flights.enter st.key).1 <;> simp [put, setGroup, Station.onward]

/-- A get moves by itself at its station. -/
theorem step?_station {n : Node} (hnode : c.nodes[0]? = some n)
    (halone : ∀ key peer, n.membership.pick key = .peer peer → n.carrier = .absent) :
    c.step? number = (st.move? c.now n.id).map (c.put number index) := by
  have hsame := setIfInBounds_same hgroup
  simp only [step?, htask, bind, Option.bind_some, Station.task, Station.move?,
    show (st.frame index).group = index from rfl, hgroup]
  simp only [show (st.frame index).stage = st.stage from rfl]
  cases hstage : st.stage with
  | asked =>
      simp only [Station.frame]
      cases hconsult : st.group.consult st.key c.now (st.hearsToken && st.cancelled) with
      | mk found after =>
          cases found with
          | none =>
              simp only [Option.map_some]
              rw [setFrames_station (by exact htask)]
              simp [put, setGroup, Station.onward]
          | some outcome =>
              simp only [Option.map_some]
              cases outcome with
              | error fault =>
                  rw [setFrames_station (by exact htask)]
                  simp [put, setGroup, Station.onward]
              | ok value =>
                  cases st.group.cache.tierOf st.key c.now with
                  | none | some tier =>
                      simp only []
                      rw [setFrames_station (by exact htask)]
                      simp [put, setGroup, Station.onward, record]
  | missed => simp only [enter_station htask, Option.map_some]
  | waiting flight =>
      simp only []
      cases st.group.flights.status flight with
      | landed outcome =>
          simp only [Option.map_some, Station.frame]
          rw [setFrames_station (by exact htask)]
          simp [put, Station.onward, hsame]
      | lost => simp only [enter_station htask, Option.map_some]
      | aloft => rfl
  | leading flight errand =>
      cases errand with
      | recheck =>
          simp only [dispatch, Station.frame]
          cases st.group.cache.peek st.key c.now with
          | some found =>
              simp only [conclude, Option.map_some]
              rw [setFrames_station (by exact htask)]
              simp [put, Station.onward, setGroup]
          | none =>
              have hload : c.startLoad number
                  { node := 0, group := index, key := st.key, hearsToken := st.hearsToken
                    stage := .leading flight .recheck } [] st.group flight =
                  c.put number index (st.onward st.group
                    [.load n.id st.group.name st.key] (.leading flight .loading)) := by
                simp only [startLoad, hnode]
                rw [setFrames_station (by exact htask)]
                simp [put, Station.onward, setGroup, record]
              simp only [hnode, Option.map_some, ← hload]
              -- an owner elsewhere cannot be reached, so the key is loaded here either way
              cases hpick : n.membership.pick st.key with
              | here => rfl
              | peer peer =>
                  simp only [halone st.key peer hpick]
                  rfl
      | fetching | loading => rfl
      | done outcome =>
          simp only [land, Option.map_some, Station.frame]
          rw [setFrames_station (by exact htask)]
          simp [put, Station.onward, setGroup]
  | answered outcome =>
      simp only [handOn, Option.map_some]
      rw [finish_station htask]
      simp [put, hsame]

end

end Cluster

/-! ## Transitions of a simulation -/

namespace Simulation

variable {s following : Simulation} {number index : Nat} {st : Station}

/-! ### Gates -/

theorem Shut.gate (h : Shut s) (name : String) :
    (s.gate name).permits = 0 ∧ (s.gate name).granted = [] := by
  rw [Simulation.gate]
  cases hfind : s.gates.find? fun gate ↦ gate.name = name with
  | none => exact ⟨rfl, rfl⟩
  | some gate => exact h gate (List.mem_of_find?_eq_some hfind)

theorem Shut.setGate (h : Shut s) {gate : Gate} (hgate : gate.permits = 0 ∧ gate.granted = []) :
    Shut (s.setGate gate) := by
  intro other hmem
  rcases List.mem_cons.1 hmem with rfl | hmem
  · exact hgate
  · exact h other (List.mem_of_mem_filter hmem)

theorem Shut.ask (h : Shut s) (name : String) (who : Nat) :
    Shut (s.setGate ((s.gate name).ask who)) := by
  obtain ⟨hpermits, hgranted⟩ := h.gate name
  exact h.setGate (by simp [Gate.ask, Gate.grant, hpermits, hgranted])

theorem Shut.leave (h : Shut s) (name : String) (who : Nat) :
    Shut (s.setGate ((s.gate name).leave who)) := by
  obtain ⟨hpermits, hgranted⟩ := h.gate name
  exact h.setGate (by simp [Gate.leave, Gate.grant, hpermits, hgranted])

theorem Shut.forget (h : Shut s) (number : Nat) : Shut (s.forget number) := by
  have hleft : ∀ {left : Simulation} {calls : List (Nat × Outstanding)}, Shut left →
      Shut { left with calls } := id
  unfold Simulation.forget
  split
  · exact hleft (h.leave _ number)
  · exact hleft h

theorem ungated_forget (s : Simulation) (number : Nat) :
    (s.forget number).ungated =
      { s.ungated with calls := s.calls.filter fun call ↦ call.1 ≠ number } := by
  unfold Simulation.forget
  split <;> rfl

/-- What becomes of a reaction does not depend on gates that are shut, and they stay so. -/
theorem Shut.afterDelay (h : Shut s) (number : Nat) {F : Type} (reaction : Reaction F) :
    ∃ moved, s.afterDelay number reaction = (reaction.delayed, moved) ∧
      moved.ungated = s.ungated ∧ Shut moved := by
  unfold Simulation.afterDelay Reaction.delayed
  cases reaction.gate with
  | none => exact ⟨s, rfl, rfl, h⟩
  | some name => exact ⟨_, rfl, rfl, h.ask name number⟩

theorem Shut.beginReaction (h : Shut s) (number : Nat) {F : Type} (reaction : Reaction F) :
    ∃ moved, s.beginReaction number reaction = (reaction.begun s.cluster.now, moved) ∧
      moved.ungated = s.ungated ∧ Shut moved := by
  unfold Simulation.beginReaction Reaction.begun
  split
  · exact h.afterDelay number reaction
  · exact ⟨s, rfl, rfl, h⟩

/-! ### Stations in a simulation -/

/-- A simulation is where a deed leads to, but for what stands at gates. -/
structure Comes (s : Simulation) (number index : Nat) (following : Simulation) (deed : Deed) :
    Prop where
  put : following.ungated = (s.put number index deed).ungated
  shut : Shut following

theorem rel_orElse {A B : Type} {r : A → B → Prop} {first second : Option A}
    {first' second' : Option B} (h : Option.Rel r first first') (h' : Option.Rel r second second') :
    Option.Rel r (first <|> second) (first' <|> second') := by
  cases h with
  | some hrel => exact .some hrel
  | none => exact h'

theorem rel_bind {A B : Type} {r : A → B → Prop} {f : B → A} {deed : Option B}
    (h : ∀ found, deed = some found → r (f found) found) :
    Option.Rel r (deed.bind fun found ↦ some (f found)) deed := by
  cases deed with
  | none => exact .none
  | some found => exact .some (h found rfl)

/-- A get whose call is over, if there was one. -/
theorem At.forget (h : s.At number index st) (hshut : Shut s) {deed : Deed}
    (hsource : deed.source = st.source) (hcall : deed.call = none) :
    Comes s number index { s.forget number with cluster := s.cluster.put number index deed }
      deed := by
  refine ⟨?_, hshut.forget number⟩
  have hforget := ungated_forget s number
  have hsame : s.sources.setIfInBounds index deed.source = s.sources :=
    hsource ▸ Cluster.setIfInBounds_same h.source
  rw [show ({ s.forget number with cluster := s.cluster.put number index deed } :
    Simulation).ungated = { (s.forget number).ungated with
      cluster := s.cluster.put number index deed } from rfl, hforget]
  simp [put, ungated, hsame, hcall]

theorem At.heed? (h : s.At number index st) (hshut : Shut s) :
    Option.Rel (Comes s number index) (s.heed? number) st.heed? := by
  simp only [Simulation.heed?, h.task, bind, Option.bind_some,
    show (st.task index).frames.length - 1 = 0 from rfl, Cluster.heed?_station h.task h.group, pure,
    Option.bind_map, Function.comp_def]
  refine rel_bind fun deed hdeed ↦ ?_
  unfold Station.heed? at hdeed
  split at hdeed
  · cases hdeed
    exact h.forget hshut rfl rfl
  · cases hdeed

theorem At.expire? (h : s.At number index st) (hshut : Shut s) :
    Option.Rel (Comes s number index) (s.expire? number) (st.expire? s.cluster.now) := by
  simp only [Simulation.expire?, bind, Cluster.expire?_station h.task h.group, pure,
    Option.bind_map, Function.comp_def]
  refine rel_bind fun deed hdeed ↦ ?_
  unfold Station.expire? at hdeed
  split at hdeed
  · cases hdeed
  · split at hdeed
    · cases hdeed
      exact h.forget hshut rfl rfl
    · cases hdeed

/-- The loader of a get answers. -/
theorem At.answerLoad? (h : s.At number index st) (hshut : Shut s) (answer : LoadAnswer) :
    Option.Rel (Comes s number index) (s.answerLoad? number answer)
      (st.answer? s.cluster.now answer) := by
  simp only [Simulation.answerLoad?, bind, Cluster.answerLoad?_station h.task h.group, pure,
    Option.bind_map, Function.comp_def]
  refine rel_bind fun deed hdeed ↦ ?_
  unfold Station.answer? at hdeed
  split at hdeed
  · cases hdeed
    exact h.forget hshut rfl rfl
  · cases hdeed

theorem At.filter_calls (h : s.At number index st) (hnone : st.call = none) :
    (s.calls.filter fun call ↦ call.1 ≠ number) = s.calls := by
  have hcall := h.call
  rw [hnone, Option.map_none, List.lookup_eq_none_iff] at hcall
  refine List.filter_eq_self.2 fun call hmem ↦ decide_eq_true fun heq ↦ ?_
  exact absurd heq.symm (bne_iff_ne.1 (hcall call hmem))

/-- A get moves, and has no call. -/
theorem At.move? (h : s.At number index st) (hshut : Shut s) (halone : s.Local) :
    Option.Rel (Comes s number index)
      ((s.cluster.step? number).map fun cluster ↦ { s with cluster })
      (st.move? s.cluster.now s.name) := by
  obtain ⟨node, hnodes, hpick⟩ := halone
  have hnode : s.cluster.nodes[0]? = some node := by simp [hnodes]
  have hname : s.name = node.id := by simp [Simulation.name, hnode]
  rw [hname, Cluster.step?_station h.task h.group hnode hpick, Option.map_map, Option.map_eq_bind]
  refine rel_bind fun deed hdeed ↦ ⟨?_, hshut⟩
  obtain ⟨hsource, hcall, hstage⟩ := (Station.move?_moves hdeed).kept
  have hnone := h.fits.call_eq_none hstage
  rw [put, hsource, hcall, hnone, Cluster.setIfInBounds_same h.source, h.filter_calls hnone]
  rfl

theorem At.innermost? (h : s.At number index st) :
    s.innermost? number = some (st.frame index) := by
  simp only [Simulation.innermost?, h.task, bind, Option.bind_some]
  rfl

/-- A call that goes on leaves the cluster as it is. -/
theorem At.put_calling (h : s.At number index st) (call : Progress LoadFault) (source : Source) :
    s.cluster.put number index (st.calling call source) = s.cluster := by
  have happly : (st.calling call source).fate.apply (st.task index) = st.task index := rfl
  rw [Cluster.put, Cluster.modify_same h.task happly]
  simp [Station.calling, Cluster.setIfInBounds_same h.group]

/-- A get goes on with a call. -/
theorem At.setCall (h : s.At number index st) {source : Source} {moved : Simulation}
    (hmoved : moved.ungated = { s.ungated with sources := s.sources.setIfInBounds index source })
    (hshut : Shut moved) (call : Progress LoadFault) :
    Comes s number index (moved.setCall number (.load call)) (st.calling call source) := by
  refine ⟨?_, hshut⟩
  have hcalls : moved.ungated.calls = s.ungated.calls := by rw [hmoved]
  replace hcalls : moved.calls = s.calls := hcalls
  rw [put, h.put_calling, show (moved.setCall number (.load call)).ungated = { moved.ungated with
    calls := (number, .load call) :: moved.calls.filter fun c ↦ c.1 ≠ number } from rfl, hmoved,
    hcalls]
  rfl

theorem At.continueCall? (h : s.At number index st) (hshut : Shut s) :
    Option.Rel (Comes s number index) (s.continueCall? number) (st.call? s.cluster.now) := by
  simp only [Simulation.continueCall?, h.innermost?, bind, Option.bind_some, h.call, Station.call?]
  cases hcall : st.call with
  | none =>
      simp only [Option.map_none, beginCall?, h.innermost?, bind, Option.bind_some, Station.frame,
        h.source]
      cases hstage : st.stage with
      | leading flight errand =>
          cases errand with
          | loading =>
              simp only []
              cases hsource : st.source with
              | files loader =>
                  simp only []
                  exact h.answerLoad? hshut _
              | script script =>
                  have hused : Shut { s with
                      sources := s.sources.setIfInBounds index (.script (script.use st.key)) } :=
                    hshut
                  obtain ⟨moved, hmoved, hsame, hshut'⟩ :=
                    hused.beginReaction number (script.reaction st.key)
                  simp only [hmoved]
                  exact .some (h.setCall hsame hshut' _)
          | recheck | done => exact .none
          | fetching peer => exact absurd hstage (h.fits.here flight peer)
      | asked | missed | waiting | answered => exact .none
  | some progress =>
      cases progress with
      | sleeping wake reaction =>
          simp only [Option.map_some, Simulation.continue?]
          split
          · obtain ⟨moved, hmoved, hsame, hshut'⟩ := hshut.afterDelay number reaction
            rw [hmoved]
            refine .some (h.setCall ?_ hshut' _)
            rw [hsame, Cluster.setIfInBounds_same h.source]
            rfl
          · exact .none
      | queued name reaction =>
          -- a gate that is shut grants nothing
          simp only [Option.map_some, continue?, (hshut.gate name).2]
          exact .none
      | ready reaction =>
          simp only [Option.map_some]
          exact h.answerLoad? hshut _

/-- A transition of a simulation is that of the station of one get. -/
theorem At.stepTask? (h : s.At number index st) (hshut : Shut s) (hlocal : s.Local) :
    Option.Rel (Comes s number index) (s.stepTask? number) (st.step? s.cluster.now s.name) :=
  rel_orElse (h.heed? hshut) (rel_orElse (h.move? hshut hlocal)
    (rel_orElse (h.continueCall? hshut) (h.expire? hshut)))

end Simulation

end ReadThrough
