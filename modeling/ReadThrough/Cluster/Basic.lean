import ReadThrough.Group.Basic
import ReadThrough.Http.Message
import ReadThrough.Membership

/-!
# Clusters

A cluster is a set of nodes with their groups, and the gets that are under way, on one clock. A
get under way is a stack of frames: the frame of the node that was asked, and below it one for
each node that the get was forwarded to. Only the innermost frame is at work; every other one
waits for the fetch it made.
-/

namespace ReadThrough

/-- How a node reaches its peers. -/
inductive Carrier where
  /-- not at all: every key is loaded here -/
  | absent
  /-- a fetch is a get on the named node, which hears the caller's token or has none -/
  | network (sharesToken : Bool)
  /-- answers to fetches come from outside the cluster -/
  | external
deriving DecidableEq, Repr

/-- A node. Its groups are registered by name, in increasing order. -/
structure Node where
  membership : Membership
  carrier : Carrier
  online : Bool
  basePath : String
  requestTimeout : Millis
  registry : List (String × Nat)

/-- The name of a node. -/
def Node.id (node : Node) : String :=
  node.membership.selfId

/-- What the leader of a flight is doing for it. -/
inductive Errand where
  /-- about to look at the tiers once more and choose where to go -/
  | recheck
  | fetching (peer : String)
  | loading
  /-- nothing more: the work came to an outcome that the others do not know yet -/
  | done (outcome : Outcome)

/-- Where a frame is. -/
inductive FrameStage where
  /-- about to consult its group -/
  | asked
  /-- the group does not know the key, and its flight table is about to be asked -/
  | missed
  | waiting (flight : Nat)
  | leading (flight : Nat) (errand : Errand)
  /-- done, and about to hand its outcome on -/
  | answered (outcome : Outcome)

/-- Whether a frame waits for something, and may notice that its token fired. -/
def FrameStage.awaits : FrameStage → Bool
  | .waiting _ | .leading _ .recheck | .leading _ (.fetching _) | .leading _ .loading => true
  | .asked | .missed | .leading _ (.done _) | .answered _ => false

/-- One get on one group, as part of a task. A frame that hears the token of its task is
cancelled when that fires. -/
structure Frame where
  node : Nat
  group : Nat
  key : String
  hearsToken : Bool
  stage : FrameStage

/-- What a task was begun for. -/
inductive Purpose where
  | get
  /-- a request from a peer, for a group and a key -/
  | serve (group key : String)
deriving DecidableEq, Repr

/-- What a task came to. -/
inductive Answer where
  | got (outcome : Outcome)
  | served (response : Http.Response)

/-- A get under way or over. Frames are listed from the innermost one. -/
structure Task where
  purpose : Purpose
  /-- whether its token has fired -/
  cancelled : Bool
  /-- when its time is up -/
  deadline : Option Millis
  frames : List Frame
  answer : Option Answer
  /-- given up by its owner -/
  dropped : Bool

/-- Whether a task has neither an answer nor been given up. -/
def Task.pending (task : Task) : Bool :=
  task.answer.isNone && !task.dropped

/-- What is worth recording of a run. -/
inductive Event where
  /-- a get was answered from a tier -/
  | hit (group key : String) (tier : Tier)
  | load (node group key : String)
  /-- a loader failed otherwise than by not finding the key -/
  | loadFailed (group key reason : String)
  | fetch (node peer group key : String)
  /-- a fetch failed and the key is loaded where it was asked for -/
  | fellBack (group peer key : String) (fault : Fault)
  /-- a request from a peer could not be answered with a value -/
  | requestFailed (group key : String) (fault : Fault)
deriving DecidableEq, Repr

/-- Nodes, every group instance ever made, every task ever begun, the tasks that got an answer in
that order, and the events so far. -/
structure Cluster where
  now : Millis
  nodes : Array Node
  groups : Array Group
  tasks : Array Task
  finished : Array Nat
  events : Array Event

namespace Cluster

/-- A cluster without nodes. -/
def empty : Cluster :=
  ⟨0, #[], #[], #[], #[], #[]⟩

/-- Change one node. -/
def modifyNode (c : Cluster) (node : Nat) (change : Node → Node) : Cluster :=
  { c with nodes := c.nodes.modify node change }

/-- Put a group instance back. -/
def setGroup (c : Cluster) (number : Nat) (group : Group) : Cluster :=
  { c with groups := c.groups.setIfInBounds number group }

/-- Change one task. -/
def modifyTask (c : Cluster) (number : Nat) (change : Task → Task) : Cluster :=
  { c with tasks := c.tasks.modify number change }

/-- Replace the frames of a task. -/
def setFrames (c : Cluster) (number : Nat) (frames : List Frame) : Cluster :=
  c.modifyTask number fun task ↦ { task with frames }

/-- Record an event. -/
def record (c : Cluster) (event : Event) : Cluster :=
  { c with events := c.events.push event }

/-- Add a node. -/
def addNode (c : Cluster) (node : Node) : Cluster :=
  { c with nodes := c.nodes.push node }

/-- The instance registered under a name on a node. -/
def group? (c : Cluster) (node : Nat) (name : String) : Option Nat := do
  (← c.nodes[node]?).registry.lookup name

/-- Put a name into a registry ordered by name. -/
def register (name : String) (number : Nat) : List (String × Nat) → List (String × Nat)
  | [] => [(name, number)]
  | (other, n) :: rest =>
      if name < other then (name, number) :: (other, n) :: rest
      else (other, n) :: register name number rest

/-- The group registered under a name, made now if there is none. The answer tells its number and
whether it was there before. -/
def getOrCreate (c : Cluster) (node : Nat) (name : String) (settings : GroupSettings) :
    (Nat × Bool) × Cluster :=
  match c.group? node name with
  | some number => ((number, true), c)
  | none =>
      let number := c.groups.size
      ((number, false),
        { c with groups := c.groups.push (.create name settings) }.modifyNode node fun n ↦
          { n with registry := register name number n.registry })

/-- Take a name off the registry of a node. The instance lives on for the gets that use it. -/
def removeGroup (c : Cluster) (node : Nat) (name : String) : Option Nat × Cluster :=
  (c.group? node name,
    c.modifyNode node fun n ↦
      { n with registry := n.registry.filter fun entry ↦ entry.1 ≠ name })

/-- The views of the groups registered on a node, in the order of their names. -/
def stats (c : Cluster) (node : Nat) : List GroupStats :=
  match c.nodes[node]? with
  | none => []
  | some n => n.registry.filterMap fun (_, number) ↦ c.groups[number]?.map Group.stats

/-- The names of the groups registered on a node. -/
def groupNames (c : Cluster) (node : Nat) : List String :=
  match c.nodes[node]? with
  | none => []
  | some n => n.registry.map Prod.fst

/-- The diagnostic text of the registry of a node. -/
def describeRegistry (c : Cluster) (node : Nat) : String :=
  match c.nodes[node]? with
  | none => ""
  | some n =>
      let names := ", ".intercalate ((c.groupNames node).map Text.quoted)
      s!"GroupRegistry \x7b groups: [{names}], picker: {n.membership.describe} \x7d"

/-- The tasks that are pending. -/
def pendingTasks (c : Cluster) : List Nat :=
  (List.range c.tasks.size).filter fun number ↦ (c.tasks[number]?).any Task.pending

end Cluster

end ReadThrough
