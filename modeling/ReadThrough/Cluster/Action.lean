import ReadThrough.Cluster.Step

/-!
# Runs of a cluster

Everything that can happen to a cluster: nodes join, groups are made and taken off their
registries, memberships change, gets and requests begin, tasks move by themselves, and loaders,
peers, tokens, clocks and owners do what they do. Nothing bounds the order in which these happen.
What is known of the surroundings, such as what a loader may answer, is a condition on the actions
of a run.
-/

namespace ReadThrough.Cluster

/-- One thing that happens to a cluster. -/
inductive Action where
  | join (membership : Membership) (carrier : Carrier) (basePath : String)
      (requestTimeout : Millis)
  | create (node : Nat) (name : String) (settings : GroupSettings)
  | removeGroup (node : Nat) (name : String)
  | changePeers (node : Nat) (change : Membership.Change)
  /-- a node can be reached from now on, or no longer -/
  | connect (node : Nat) (online : Bool)
  | get (node group : Nat) (key : String) (hearsToken cancelled : Bool)
      (timeout : Option Millis)
  | serve (node : Nat) (method path : String)
  | step (task : Nat)
  | heed (task depth : Nat)
  | answerLoad (task : Nat) (answer : LoadAnswer)
  | answerFetch (task : Nat) (answer : Outcome)
  | breakOff (task depth : Nat) (reason : String)
  | expire (task : Nat)
  | drop (task : Nat)
  | cancel (task : Nat)
  | remove (group : Nat) (key : String)
  | clear (group : Nat)
  | advance (span : Millis)

/-- The cluster after an action, if it can happen. -/
def act? (c : Cluster) : Action → Option Cluster
  | .join membership carrier basePath requestTimeout =>
      some (c.addNode
        { membership, carrier, online := true, basePath, requestTimeout, registry := [] })
  | .create node name settings => some (c.getOrCreate node name settings).2
  | .removeGroup node name => some (c.removeGroup node name).2
  | .changePeers node change =>
      some (c.modifyNode node fun n ↦ { n with membership := n.membership.change change })
  | .connect node online => some (c.modifyNode node fun n ↦ { n with online })
  | .get node group key hearsToken cancelled timeout => do
      let _ ← c.groups[group]?
      some (c.get node group key hearsToken cancelled timeout).2
  | .serve node method path => some (c.serve node method path).2
  | .step task => c.step? task
  | .heed task depth => c.heed? task depth
  | .answerLoad task answer => c.answerLoad? task answer
  | .answerFetch task answer => c.answerFetch? task answer
  | .breakOff task depth reason => c.breakOff? task depth reason
  | .expire task => c.expire? task
  | .drop task => some (c.drop task)
  | .cancel task => some (c.cancel task)
  | .remove group key => do
      let g ← c.groups[group]?
      some (c.setGroup group (g.remove key).2)
  | .clear group => do
      let g ← c.groups[group]?
      some (c.setGroup group g.clear)
  | .advance span => some (c.advance span)

/-- The cluster after several actions, one after the other, if they can happen. -/
def actAll? (c : Cluster) : List Action → Option Cluster
  | [] => some c
  | action :: rest => do (← c.act? action).actAll? rest

/-- The clusters that a run of allowed actions leads to. -/
inductive Runs (allowed : Cluster → Action → Prop) (c : Cluster) : Cluster → Prop where
  | here : Runs allowed c c
  | next {middle last : Cluster} {action : Action} :
      Runs allowed c middle → allowed middle action → middle.act? action = some last →
      Runs allowed c last

/-- The answer of a task, once it has one. -/
def answer? (c : Cluster) (number : Nat) : Option Answer := do
  (← c.tasks[number]?).answer

end ReadThrough.Cluster
