import ReadThrough.Cluster.Gate
import ReadThrough.Cluster.Script
import ReadThrough.Cluster.Step
import ReadThrough.Files.Loader
import ReadThrough.Http.RequestLine

/-!
# Simulated clusters

A cluster together with the sources its groups load from, the scripted peers its nodes fetch
from, and gates that hold reactions back. After every operation the simulation settles: the tasks
that can move are run in increasing order, each until it must wait, and this is repeated until
none can move. A run is therefore determined by its operations alone.
-/

namespace ReadThrough

/-- Where the values of a group come from. -/
inductive Source where
  | script (script : Script LoadFault)
  | files (loader : FileLoader)

/-- How far the reaction to a call has come. -/
inductive Progress (F : Type) where
  | sleeping (wake : Millis) (reaction : Reaction F)
  | queued (gate : String) (reaction : Reaction F)
  | ready (reaction : Reaction F)

/-- An outstanding call of a task to a scripted loader or to a scripted peer. -/
inductive Outstanding where
  | load (progress : Progress LoadFault)
  | fetch (progress : Progress PeerFault)

/-- The gate that an outstanding call waits at. -/
def Outstanding.gate? : Outstanding → Option String
  | .load (.queued gate _) => some gate
  | .fetch (.queued gate _) => some gate
  | _ => none

/-- A cluster with everything that answers it. Sources belong to group instances and peers to
nodes, by number. -/
structure Simulation where
  cluster : Cluster
  sources : Array Source
  peers : Array (Script PeerFault)
  gates : List Gate
  calls : List (Nat × Outstanding)

namespace Simulation

/-- A simulation of nothing. -/
def empty : Simulation :=
  ⟨.empty, #[], #[], [], []⟩

/-! ## Gates -/

/-- The gate of a name; one that was never used has no permits. -/
def gate (s : Simulation) (name : String) : Gate :=
  (s.gates.find? fun g ↦ g.name = name).getD (.closed name)

/-- Put a gate back. -/
def setGate (s : Simulation) (gate : Gate) : Simulation :=
  { s with gates := gate :: s.gates.filter fun g ↦ g.name ≠ gate.name }

/-- Add permits to a gate. -/
def release (s : Simulation) (name : String) (permits : Nat) : Simulation :=
  let gate := s.gate name
  s.setGate (gate.add permits)

/-! ## Outstanding calls -/

/-- Forget the outstanding call of a task. -/
def forget (s : Simulation) (task : Nat) : Simulation :=
  let left :=
    match (s.calls.lookup task).bind Outstanding.gate? with
    | some gate => s.setGate ((s.gate gate).leave task)
    | none => s
  { left with calls := s.calls.filter fun call ↦ call.1 ≠ task }

/-- Replace the outstanding call of a task. -/
def setCall (s : Simulation) (task : Nat) (call : Outstanding) : Simulation :=
  { s with calls := (task, call) :: s.calls.filter fun c ↦ c.1 ≠ task }

/-- The part of a reaction after its delay. -/
def afterDelay {F : Type} (s : Simulation) (task : Nat) (reaction : Reaction F) :
    Progress F × Simulation :=
  match reaction.gate with
  | none => (.ready reaction, s)
  | some name => (.queued name reaction, s.setGate ((s.gate name).ask task))

/-- The beginning of a reaction. -/
def beginReaction {F : Type} (s : Simulation) (task : Nat) (reaction : Reaction F) :
    Progress F × Simulation :=
  if reaction.delay = 0 then s.afterDelay task reaction
  else (.sleeping (s.cluster.now + reaction.delay) reaction, s)

/-- The next step of a reaction, if it need not wait. -/
def continue? {F : Type} (s : Simulation) (task : Nat) :
    Progress F → Option (Progress F × Simulation)
  | .sleeping wake reaction =>
      if wake ≤ s.cluster.now then some (s.afterDelay task reaction) else none
  | .queued name reaction =>
      let gate := s.gate name
      if gate.granted.contains task then
        some (.ready reaction, s.setGate (gate.take task))
      else none
  | .ready _ => none

/-- The innermost frame of a task. -/
def innermost? (s : Simulation) (task : Nat) : Option Frame := do
  (← s.cluster.tasks[task]?).frames.head?

/-- Answer the loader call that a task waits for. -/
def answerLoad? (s : Simulation) (task : Nat) (answer : LoadAnswer) : Option Simulation := do
  let cluster ← s.cluster.answerLoad? task answer
  pure { s.forget task with cluster }

/-- Answer the fetch that a task waits for. -/
def answerFetch? (s : Simulation) (task : Nat) (answer : Outcome) : Option Simulation := do
  let cluster ← s.cluster.answerFetch? task answer
  pure { s.forget task with cluster }

/-- Begin the call that a task has just made to a source or to a scripted peer. -/
def beginCall? (s : Simulation) (task : Nat) : Option Simulation := do
  let frame ← s.innermost? task
  match frame.stage with
  | .leading _ .loading =>
      match ← s.sources[frame.group]? with
      | .files loader => s.answerLoad? task (loader.load s.cluster.now frame.key)
      | .script script =>
          let used :=
            { s with
              sources := s.sources.setIfInBounds frame.group (.script (script.use frame.key)) }
          let (progress, begun) := used.beginReaction task (script.reaction frame.key)
          pure (begun.setCall task (.load progress))
  | .leading _ (.fetching _) =>
      let script ← s.peers[frame.node]?
      let used := { s with peers := s.peers.setIfInBounds frame.node (script.use frame.key) }
      let (progress, begun) := used.beginReaction task (script.reaction frame.key)
      pure (begun.setCall task (.fetch progress))
  | _ => none

/-- Move the outstanding call of a task on, if it need not wait. -/
def continueCall? (s : Simulation) (task : Nat) : Option Simulation := do
  let frame ← s.innermost? task
  match s.calls.lookup task with
  | none => s.beginCall? task
  | some (.load (.ready reaction)) =>
      s.answerLoad? task (reaction.answer frame.key s.cluster.now)
  | some (.load progress) =>
      let (next, moved) ← s.continue? task progress
      pure (moved.setCall task (.load next))
  | some (.fetch (.ready reaction)) =>
      match frame.stage, s.cluster.groups[frame.group]? with
      | .leading _ (.fetching peer), some group =>
          s.answerFetch? task
            ((reaction.answer frame.key s.cluster.now).mapError fun fault ↦
              fault group.name frame.key peer)
      | _, _ => none
  | some (.fetch progress) =>
      let (next, moved) ← s.continue? task progress
      pure (moved.setCall task (.fetch next))

/-! ## Settling -/

/-- The outermost frame of a task notices that its token fired. -/
def heed? (s : Simulation) (task : Nat) : Option Simulation := do
  let depth := (← s.cluster.tasks[task]?).frames.length - 1
  let cluster ← s.cluster.heed? task depth
  pure { s.forget task with cluster }

/-- The time of a task is up. -/
def expire? (s : Simulation) (task : Nat) : Option Simulation := do
  let cluster ← s.cluster.expire? task
  pure { s.forget task with cluster }

/-- One transition of a task: it notices its token first and its deadline last, so that a task
whose answer is there in time answers. -/
def stepTask? (s : Simulation) (task : Nat) : Option Simulation :=
  s.heed? task
    <|> (s.cluster.step? task).map (fun cluster ↦ { s with cluster })
    <|> s.continueCall? task
    <|> s.expire? task

/-- Move a task up to `limit` times, until it has an answer or must wait. -/
def runTask : Nat → Simulation → Nat → Simulation
  | 0, s, _ => s
  | limit + 1, s, task =>
      match s.stepTask? task with
      | none => s
      | some next => runTask limit next task

/-- The tasks that can move, in increasing order. -/
def movable (s : Simulation) : List Nat :=
  (List.range s.cluster.tasks.size).filter fun task ↦ (s.stepTask? task).isSome

/-- The most transitions that a task makes in a row. Its frames lead flights of different groups,
and a frame makes at most fifteen transitions without waiting. -/
def runLimit (s : Simulation) : Nat :=
  15 * (s.cluster.groups.size + 2)

/-- One round: every task that can move when its turn comes is run until it must wait. -/
def round (s : Simulation) : Simulation :=
  (List.range s.cluster.tasks.size).foldl (runTask s.runLimit) s

/-- Up to `limit` rounds, as long as a task can move. -/
def rounds : Nat → Simulation → Simulation
  | 0, s => s
  | limit + 1, s => if s.movable.isEmpty then s else rounds limit s.round

/-- Run every task that can move until none can. A task leads at most one flight of each group, and
every round ends a flight or a task. -/
def settle (s : Simulation) : Simulation :=
  rounds ((s.cluster.tasks.size + 1) * (s.cluster.groups.size + 2) + 2) s

/-! ## Operations -/

/-- Do something to the cluster and settle. -/
def onCluster (s : Simulation) (change : Cluster → Cluster) : Simulation :=
  { s with cluster := change s.cluster }.settle

/-- Do something to the cluster that has an answer of its own, and settle. -/
def askCluster {α : Type} (s : Simulation) (change : Cluster → α × Cluster) : α × Simulation :=
  let (result, cluster) := change s.cluster
  (result, { s with cluster }.settle)

/-- Add a node with the script of its peers. -/
def addNode (s : Simulation) (node : Node) (peers : Script PeerFault) : Simulation :=
  { s with cluster := s.cluster.addNode node, peers := s.peers.push peers }

/-- The group registered under a name, made now with its source if there is none. The answer tells
its number and whether it was there before. -/
def getOrCreate (s : Simulation) (node : Nat) (name : String) (settings : GroupSettings)
    (source : Source) : (Nat × Bool) × Simulation :=
  let ((number, existed), cluster) := s.cluster.getOrCreate node name settings
  ((number, existed),
    { s with cluster, sources := if existed then s.sources else s.sources.push source })

/-- Let all groups that load files load them from a tree. -/
def setTree (s : Simulation) (tree : Files.Tree) : Simulation :=
  { s with
    sources := s.sources.map fun
      | .files loader => .files { loader with tree }
      | source => source }

/-- Begin a get and settle. -/
def get (s : Simulation) (node group : Nat) (key : String) (hearsToken cancelled : Bool)
    (timeout : Option Millis) : Nat × Simulation :=
  s.askCluster (·.get node group key hearsToken cancelled timeout)

/-- Begin to serve a request and settle. -/
def serve (s : Simulation) (node : Nat) (method path : String) : Nat × Simulation :=
  s.askCluster (·.serve node method path)

/-- The next moment at which a sleeping reaction wakes or the time of a task is up. -/
def nextDue? (s : Simulation) : Option Millis :=
  let wakes := s.calls.filterMap fun
    | (_, .load (.sleeping wake _)) => some wake
    | (_, .fetch (.sleeping wake _)) => some wake
    | _ => none
  let deadlines := s.cluster.tasks.toList.filterMap fun task ↦
    if task.pending then task.deadline else none
  (wakes ++ deadlines).min?

/-- Let time pass from one due moment to the next, up to `limit` times, until a task has its
answer. -/
def await (task : Nat) : Nat → Simulation → Simulation
  | 0, s => s
  | limit + 1, s =>
      match (s.cluster.tasks[task]?).any Task.pending, s.nextDue? with
      | true, some due => await task limit (s.onCluster (·.advance (due - s.cluster.now)))
      | _, _ => s

/-- A request line that arrives at a node and what goes out as the response. A request that has to
wait is waited for: at each due moment a reaction wakes or a task ends. -/
def exchange (s : Simulation) (node : Nat) (method target : String) :
    Http.Response × Simulation :=
  match Http.receive method target with
  | .malformed status => (⟨status, [], .empty⟩, s)
  | .request method path =>
      let (task, begun) := s.serve node method path
      let done := begun.await task (begun.calls.length + begun.cluster.tasks.size)
      match (done.cluster.tasks[task]?).bind Task.answer with
      | some (.served response) => (response.sent method, done)
      | _ => (.fault .cancelled, done)

/-- Give a task up and settle. -/
def drop (s : Simulation) (task : Nat) : Simulation :=
  let pending := (s.cluster.tasks[task]?).any Task.pending
  (if pending then s.forget task else s).onCluster (·.drop task)

/-- Do something to one group and settle. Nothing happens where there is no such group. -/
def onGroup {α : Type} (s : Simulation) (number : Nat) (change : Group → Millis → α × Group) :
    Option α × Simulation :=
  match s.cluster.groups[number]? with
  | none => (none, s)
  | some group =>
      let (result, group) := change group s.cluster.now
      (some result, { s with cluster := s.cluster.setGroup number group }.settle)

end Simulation

end ReadThrough
