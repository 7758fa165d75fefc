import ReadThrough.Cluster.Simulation
import ReadThrough.Shares

/-!
# Sessions with a registry

A session operates on the registry of one node from outside: groups are made and taken off the
registry, gets begin on groups that are on it or were, keys are removed, tokens fire, gets are given
up, the answers of loaders come in, and time passes. After each operation the simulation settles.
Each get belongs to the name of the group that it was begun on. The operations on one name are a
session of their own, in which the gets and the groups of that name are numbered anew (`restrict`).
-/

namespace ReadThrough

/-- A node that has no peers other than itself, or cannot reach any. -/
def Node.Alone (node : Node) : Prop :=
  node.carrier = .absent ∨ ∀ peer ∈ node.membership.peers, peer = node.id

/-- The names of the group instances, in the order in which they were made. -/
def Cluster.instances (c : Cluster) : List String :=
  c.groups.toList.map Group.name

/-- A simulation of one node, with the name of the group that each get was begun on. -/
structure Session where
  sim : Simulation
  owners : List String

namespace Session

/-- A group, as an operation refers to it. -/
inductive Handle where
  /-- the one that is registered under a name -/
  | named (name : String)
  /-- one that was handed out before, whether it is still registered or not -/
  | handed (number : Nat)

/-- One operation of a session. -/
inductive Operation where
  | create (name : String) (settings : GroupSettings) (source : Source)
  | removeGroup (name : String)
  | get (handle : Handle) (key : String) (hearsToken cancelled : Bool) (timeout : Option Millis)
  | remove (handle : Handle) (key : String)
  | cancel (task : Nat)
  | drop (task : Nat)
  /-- the loader that a get waits for answers -/
  | finish (task : Nat) (answer : LoadAnswer)
  | advance (span : Millis)

/-- What an operation answers. Group instances and gets are told by their numbers. -/
inductive Reply where
  | group (number : Nat) (existed : Bool) (settings : Option GroupSettings)
  | removedGroup (number : Option Nat)
  | begun (task : Nat)
  | removed (held : Option Bool)
  /-- there is no such group -/
  | noGroup
  | finished (taken : Bool)
  | done

/-- A node before the first operation, with the script of its peers. -/
def start (node : Node) (peers : Script PeerFault) : Session :=
  ⟨Simulation.empty.addNode { node with registry := [] } peers, []⟩

/-- The names of the group instances of a session. -/
def instances (s : Session) : List String :=
  s.sim.cluster.instances

/-- The number of the instance that is registered under a name. -/
def number? (s : Session) (name : String) : Option Nat :=
  s.sim.cluster.group? 0 name

/-- The instance that is registered under a name. -/
def group? (s : Session) (name : String) : Option Group :=
  (s.number? name).bind (s.sim.cluster.groups[·]?)

/-- The name of the group that a handle refers to. -/
def Handle.name? (s : Session) : Handle → Option String
  | .named name => some name
  | .handed number => s.instances[number]?

/-- The number that a handle refers to. -/
def Handle.number? (s : Session) : Handle → Option Nat
  | .named name => s.number? name
  | .handed number => some number

/-- The group that a handle refers to, with its number. -/
def find? (s : Session) (handle : Handle) : Option (Nat × Group) := do
  let number ← handle.number? s
  let group ← s.sim.cluster.groups[number]?
  pure (number, group)

/-- What each get came to, and whether it was given up. -/
def outcomes (s : Session) : List (Option Answer × Bool) :=
  s.sim.cluster.tasks.toList.map fun task ↦ (task.answer, task.dropped)

/-- The answer to an operation and the session after it. -/
def perform (s : Session) : Operation → Reply × Session
  | .create name settings source =>
      let ((number, existed), sim) := s.sim.getOrCreate 0 name settings source
      (.group number existed (sim.cluster.groups[number]?.map Group.settings),
        { s with sim := sim.settle })
  | .removeGroup name =>
      let (number, sim) := s.sim.askCluster (·.removeGroup 0 name)
      (.removedGroup number, { s with sim })
  | .get handle key hearsToken cancelled timeout =>
      match s.find? handle with
      | none => (.noGroup, s)
      | some (number, group) =>
          let (task, sim) := s.sim.get 0 number key hearsToken cancelled timeout
          (.begun task, ⟨sim, s.owners ++ [group.name]⟩)
  | .remove handle key =>
      match s.find? handle with
      | none => (.noGroup, s)
      | some (number, _) =>
          let (held, sim) := s.sim.onGroup number fun group _ ↦ group.remove key
          (.removed held, { s with sim })
  | .cancel task => (.done, { s with sim := s.sim.onCluster (·.cancel task) })
  | .drop task => (.done, { s with sim := s.sim.drop task })
  | .finish task answer =>
      match s.sim.answerLoad? task answer with
      | none => (.finished false, s)
      | some sim => (.finished true, { s with sim := sim.settle })
  | .advance span => (.done, { s with sim := s.sim.onCluster (·.advance span) })

/-- The session after operations. -/
def after (s : Session) (operations : List Operation) : Session :=
  operations.foldl (fun s operation ↦ (s.perform operation).2) s

/-- The answers to operations, one after the other. -/
def replies : Session → List Operation → List Reply
  | _, [] => []
  | s, operation :: rest => (s.perform operation).1 :: replies (s.perform operation).2 rest

/-- A name was created and not removed since. -/
def Created (name : String) (operations : List Operation) : Prop :=
  ∃ before settings source rest, operations = before ++ .create name settings source :: rest ∧
    .removeGroup name ∉ rest

/-! ## One name -/

/-- A handle as one on the groups of a name alone. -/
def Handle.within (s : Session) (name : String) : Handle → Handle
  | .named name => .named name
  | .handed number => .handed (rank name s.instances number)

/-- An operation as one on the groups of a name alone. It is none on that name if it refers to a
group of another one, or to a get that was begun on another one or was not begun. Time passes for
all names. -/
def within? (s : Session) (name : String) : Operation → Option Operation
  | .create other settings source =>
      if other = name then some (.create other settings source) else none
  | .removeGroup other => if other = name then some (.removeGroup other) else none
  | .get handle key hearsToken cancelled timeout =>
      if handle.name? s = some name then
        some (.get (handle.within s name) key hearsToken cancelled timeout)
      else none
  | .remove handle key =>
      if handle.name? s = some name then some (.remove (handle.within s name) key) else none
  | .cancel task =>
      if s.owners[task]? = some name then some (.cancel (rank name s.owners task)) else none
  | .drop task =>
      if s.owners[task]? = some name then some (.drop (rank name s.owners task)) else none
  | .finish task answer =>
      if s.owners[task]? = some name then some (.finish (rank name s.owners task) answer) else none
  | .advance span => some (.advance span)

/-- A reply with instances and gets numbered as they are among those of a name. -/
def renumber (s : Session) (name : String) : Reply → Reply
  | .group number existed settings => .group (rank name s.instances number) existed settings
  | .removedGroup number => .removedGroup (number.map (rank name s.instances))
  | .begun task => .begun (rank name s.owners task)
  | .removed held => .removed held
  | .noGroup => .noGroup
  | .finished taken => .finished taken
  | .done => .done

/-- The operations on one name. -/
def restrict (name : String) : Session → List Operation → List Operation
  | _, [] => []
  | s, operation :: rest =>
      (s.within? name operation).toList ++ restrict name (s.perform operation).2 rest

/-- The answers to the operations on one name. -/
def repliesOn (name : String) : Session → List Operation → List Reply
  | _, [] => []
  | s, operation :: rest =>
      let (reply, next) := s.perform operation
      if (s.within? name operation).isSome then s.renumber name reply :: repliesOn name next rest
      else repliesOn name next rest

end Session

end ReadThrough
