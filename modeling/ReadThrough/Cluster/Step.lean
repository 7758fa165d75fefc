import ReadThrough.Cluster.Basic
import ReadThrough.Http.Route
import ReadThrough.Metrics
import ReadThrough.Datum.Json

/-!
# Transitions of a cluster

One transition moves the innermost frame of one task: it consults its group, asks the flight
table, takes the outcome of the flight it waits on, looks at the tiers once more and sends the
key to its owner or to the loader, lands the flight it led, or hands its outcome to the frame
above. What loaders and external peers answer, connections that break, tokens that fire, deadlines,
and tasks that are given up come from outside. Transitions of different tasks may interleave in any
order.
-/

namespace ReadThrough.Cluster

/-- Lose the flights that some frames lead. -/
def abandon (c : Cluster) (frames : List Frame) : Cluster :=
  frames.foldl
    (fun c frame ↦
      match frame.stage, c.groups[frame.group]? with
      | .leading flight _, some group =>
          c.setGroup frame.group { group with flights := group.flights.lose frame.key flight }
      | _, _ => c)
    c

/-- Give a task its answer. A request that ends without a value is recorded unless the value is
known not to exist. -/
def finish (c : Cluster) (number : Nat) (outcome : Outcome) : Cluster :=
  match c.tasks[number]? with
  | none => c
  | some task =>
      let done (c : Cluster) (answer : Answer) : Cluster :=
        { c.modifyTask number fun t ↦ { t with answer := some answer, frames := [] } with
          finished := c.finished.push number }
      match task.purpose with
      | .get => done c (.got outcome)
      | .serve group key =>
          let answered := done c (.served (.served c.now outcome))
          match outcome with
          | .error fault =>
              if fault.isNotFound then answered
              else answered.record (.requestFailed group key fault)
          | .ok _ => answered

/-- Ask the flight table for the key of a frame. -/
def enter (c : Cluster) (number : Nat) (frame : Frame) (outer : List Frame) (group : Group) :
    Cluster :=
  let (role, flights) := group.flights.enter frame.key
  let stage :=
    match role with
    | .wait flight => .waiting flight
    | .lead flight => .leading flight .recheck
  (c.setGroup frame.group { group with flights }).setFrames number ({ frame with stage } :: outer)

/-- The work of a leader came to an outcome. -/
def conclude (c : Cluster) (number : Nat) (frame : Frame) (outer : List Frame) (group : Group)
    (flight : Nat) (outcome : Outcome) : Cluster :=
  (c.setGroup frame.group group).setFrames number
    ({ frame with stage := .leading flight (.done outcome) } :: outer)

/-- Land the flight that a frame leads. -/
def land (c : Cluster) (number : Nat) (frame : Frame) (outer : List Frame) (group : Group)
    (flight : Nat) (outcome : Outcome) : Cluster :=
  (c.setGroup frame.group
      { group with flights := group.flights.land frame.key flight outcome }).setFrames number
    ({ frame with stage := .answered outcome } :: outer)

/-- Call the loader for the key of a frame. -/
def startLoad (c : Cluster) (number : Nat) (frame : Frame) (outer : List Frame) (group : Group)
    (flight : Nat) : Cluster :=
  let node := (c.nodes[frame.node]?.map Node.id).getD ""
  ((c.record (.load node group.name frame.key)).setGroup frame.group group).setFrames number
    ({ frame with stage := .leading flight .loading } :: outer)

/-- Take in what a peer answered for the key of a frame. -/
def takeFetched (c : Cluster) (number : Nat) (frame : Frame) (outer : List Frame) (group : Group)
    (flight : Nat) (peer : String) (answer : Outcome) : Cluster :=
  match group.takeFetched frame.key c.now answer with
  | (.done outcome, group) => c.conclude number frame outer group flight outcome
  | (.fallBack fault, group) =>
      (c.record (.fellBack group.name peer frame.key fault)).startLoad number frame outer group
        flight

/-- The node that a fetch reaches, with the number of the group it is for, or the fault that the
fetch ends with at once. -/
def route (c : Cluster) (peer name : String) : Except Fault (Nat × Nat) :=
  match c.nodes.findIdx? fun n ↦ n.id = peer && n.online with
  | none => .error (.transportFailure peer "connection refused")
  | some node =>
      match c.group? node name with
      | none => .error (.groupNotFound name)
      | some number => .ok (node, number)

/-- Forward the key of a frame to its owner over the network: the get goes on in a frame of the
owner, or the fetch ends at once. -/
def forward (c : Cluster) (number : Nat) (frame : Frame) (outer : List Frame) (group : Group)
    (flight : Nat) (peer : String) (sharesToken : Bool) : Cluster :=
  match c.route peer group.name with
  | .error fault => c.takeFetched number frame outer group flight peer (.error fault)
  | .ok (node, target) =>
      let inner : Frame :=
        { node, group := target, key := frame.key
          hearsToken := sharesToken && frame.hearsToken, stage := .asked }
      let above := { frame with stage := .leading flight (.fetching peer) }
      match c.groups[target]? with
      | none => c
      | some g =>
          (c.setGroup target g.recordServerRequest).setFrames number (inner :: above :: outer)

/-- The work of a leader: answer from the tiers if they hold the key by now, or else send the key
to its owner, or to the loader if that is here or cannot be reached. -/
def dispatch (c : Cluster) (number : Nat) (frame : Frame) (outer : List Frame) (group : Group)
    (flight : Nat) : Cluster :=
  match group.cache.peek frame.key c.now with
  | some (value, _) => c.conclude number frame outer group flight (.ok value)
  | none =>
      match c.nodes[frame.node]? with
      | none => c
      | some node =>
          let fetch (peer : String) := c.record (.fetch node.id peer group.name frame.key)
          match node.membership.pick frame.key, node.carrier with
          | .peer peer, .network sharesToken =>
              (fetch peer).forward number frame outer group flight peer sharesToken
          | .peer peer, .external =>
              (fetch peer).setFrames number
                ({ frame with stage := .leading flight (.fetching peer) } :: outer)
          | _, _ => c.startLoad number frame outer group flight

/-- Hand the outcome of the innermost frame to the fetch of the frame above, or to the owner of
the task if there is none. -/
def handOn (c : Cluster) (number : Nat) (outer : List Frame) (outcome : Outcome) : Cluster :=
  match outer with
  | [] => c.finish number outcome
  | parent :: rest =>
      match parent.stage, c.groups[parent.group]? with
      | .leading flight (.fetching peer), some group =>
          c.takeFetched number parent rest group flight peer outcome
      | _, _ => c.setFrames number outer

/-- One transition of a task by itself, if it can move. -/
def step? (c : Cluster) (number : Nat) : Option Cluster := do
  let task ← c.tasks[number]?
  match task.frames with
  | [] => none
  | frame :: outer =>
      let group ← c.groups[frame.group]?
      match frame.stage with
      | .asked =>
          match group.consult frame.key c.now (frame.hearsToken && task.cancelled) with
          | (some outcome, after) =>
              let noted :=
                match outcome, group.cache.tierOf frame.key c.now with
                | .ok _, some tier => c.record (.hit group.name frame.key tier)
                | _, _ => c
              some ((noted.setGroup frame.group after).setFrames number
                ({ frame with stage := .answered outcome } :: outer))
          | (none, after) =>
              some ((c.setGroup frame.group after).setFrames number
                ({ frame with stage := .missed } :: outer))
      | .missed => some (c.enter number frame outer group)
      | .waiting flight =>
          match group.flights.status flight with
          | .landed outcome =>
              some (c.setFrames number ({ frame with stage := .answered outcome } :: outer))
          | .lost => some (c.enter number frame outer group)
          | .aloft => none
      | .leading flight .recheck => some (c.dispatch number frame outer group flight)
      | .leading _ (.fetching _) | .leading _ .loading => none
      | .leading flight (.done outcome) => some (c.land number frame outer group flight outcome)
      | .answered outcome => some (c.handOn number outer outcome)

/-- The frame at a depth notices that the token of its task fired, `0` being the innermost frame:
what it waits for is given up. -/
def heed? (c : Cluster) (number depth : Nat) : Option Cluster := do
  let task ← c.tasks[number]?
  let frame ← task.frames[depth]?
  if task.cancelled && frame.hearsToken && frame.stage.awaits then
    some ((c.abandon (task.frames.take (depth + 1))).setFrames number
      ({ frame with stage := .answered (.error .cancelled) } :: task.frames.drop (depth + 1)))
  else none

/-- What a loader answers to the call that a task waits for. -/
def answerLoad? (c : Cluster) (number : Nat) (answer : LoadAnswer) : Option Cluster := do
  match (← c.tasks[number]?).frames with
  | frame :: outer =>
      match frame.stage, c.groups[frame.group]? with
      | .leading flight .loading, some group =>
          let noted :=
            match answer with
            | .error (.failed reason) => c.record (.loadFailed group.name frame.key reason)
            | _ => c
          let (outcome, group) := group.takeLoaded frame.key c.now answer
          some (noted.conclude number frame outer group flight outcome)
      | _, _ => none
  | [] => none

/-- What an external peer answers to the fetch that a task waits for. -/
def answerFetch? (c : Cluster) (number : Nat) (answer : Outcome) : Option Cluster := do
  match (← c.tasks[number]?).frames with
  | frame :: outer =>
      match frame.stage, c.groups[frame.group]? with
      | .leading flight (.fetching peer), some group =>
          some (c.takeFetched number frame outer group flight peer answer)
      | _, _ => none
  | [] => none

/-- The connection under a fetch breaks: the frames at a depth and below it are given up, and the
fetch of the frame above them fails. -/
def breakOff? (c : Cluster) (number depth : Nat) (reason : String) : Option Cluster := do
  let task ← c.tasks[number]?
  let frame ← task.frames[depth + 1]?
  let left := c.abandon (task.frames.take (depth + 1))
  match frame.stage, left.groups[frame.group]? with
  | .leading flight (.fetching peer), some group =>
      some (left.takeFetched number frame (task.frames.drop (depth + 2)) group flight peer
        (.error (.transportFailure peer reason)))
  | _, _ => none

/-- The time of a task is up: what it waits for is given up. -/
def expire? (c : Cluster) (number : Nat) : Option Cluster := do
  let task ← c.tasks[number]?
  let deadline ← task.deadline
  if task.pending && deadline ≤ c.now then
    some ((c.abandon task.frames).finish number (.error .cancelled))
  else none

/-- Give a pending task up without an answer. -/
def drop (c : Cluster) (number : Nat) : Cluster :=
  match c.tasks[number]? with
  | none => c
  | some task =>
      if task.pending then
        (c.abandon task.frames).modifyTask number fun t ↦ { t with dropped := true, frames := [] }
      else c

/-- Fire the token of a task. -/
def cancel (c : Cluster) (number : Nat) : Cluster :=
  c.modifyTask number fun task ↦ { task with cancelled := true }

/-- Begin a task on a group. -/
def begin (c : Cluster) (node group : Nat) (key : String) (purpose : Purpose)
    (hearsToken cancelled : Bool) (deadline : Option Millis) : Nat × Cluster :=
  let frame : Frame := { node, group, key, hearsToken, stage := .asked }
  (c.tasks.size,
    { c with
      tasks := c.tasks.push
        { purpose, cancelled, deadline, frames := [frame], answer := none, dropped := false } })

/-- Begin a get on a group of a node. -/
def get (c : Cluster) (node group : Nat) (key : String) (hearsToken cancelled : Bool)
    (timeout : Option Millis) : Nat × Cluster :=
  c.begin node group key .get hearsToken cancelled (timeout.map (c.now + ·))

/-- A task that has its response at once. -/
def respond (c : Cluster) (response : Http.Response) : Nat × Cluster :=
  (c.tasks.size,
    { c with
      tasks := c.tasks.push
        { purpose := .get, cancelled := false, deadline := none, frames := []
          answer := some (.served response), dropped := false }
      finished := c.finished.push c.tasks.size })

/-- Begin to serve a request on a node. -/
def serve (c : Cluster) (node : Nat) (method path : String) : Nat × Cluster :=
  match c.nodes[node]? with
  | none => c.respond (.fault (.internal "no such node"))
  | some n =>
      match Http.route n.basePath method path with
      | .health => c.respond (.message 200 "ok")
      | .metrics =>
          c.respond (.typed 200 Metrics.contentType (Metrics.render (c.stats node)).toUTF8)
      | .stats =>
          c.respond (.typed 200 "application/json"
            (Datum.list ((c.stats node).map GroupStats.toDatum)).toJson.toUTF8)
      | .refused status text => c.respond (.message status text)
      | .entry name key =>
          match n.registry.lookup name with
          | none => c.respond (.fault (.groupNotFound name))
          | some number =>
              match c.groups[number]? with
              | none => c.respond (.fault (.groupNotFound name))
              | some group =>
                  (c.setGroup number group.recordServerRequest).begin node number key
                    (.serve name key) false false (some (c.now + n.requestTimeout))

/-- Let time pass. -/
def advance (c : Cluster) (span : Millis) : Cluster :=
  { c with now := c.now + span }

end ReadThrough.Cluster
