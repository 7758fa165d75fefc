import ReadThrough.Ring.Basic
import ReadThrough.Text.Quoted

/-!
# Membership

Each node keeps its own copy of the ring. Nodes agree on who owns a key because they apply the
same list of peers and the ring does not remember the order in which it was built.
-/

namespace ReadThrough

/-- Who owns a key, as a node sees it. -/
inductive Owner where
  /-- this node, or nobody because there are no peers -/
  | here
  | peer (id : String)
deriving DecidableEq, Repr

/-- The name of a node with its copy of the ring. -/
structure Membership where
  selfId : String
  ring : Ring

namespace Membership

/-- A node without peers. -/
def alone (selfId : String) (replicas : Nat) (hash : Ring.Hash) : Membership :=
  ⟨selfId, .empty replicas hash⟩

/-- The membership of a node that never has peers. -/
def standalone : Membership :=
  alone "self" Ring.defaultReplicas Ring.defaultHash

/-- Replace all peers. -/
def setPeers (membership : Membership) (peers : List String) : Membership :=
  { membership with
    ring := (Ring.empty membership.ring.replicas membership.ring.hash).insertMany peers }

/-- Add peers to those that are there. -/
def addPeers (membership : Membership) (peers : List String) : Membership :=
  { membership with ring := membership.ring.insertMany peers }

/-- Remove a peer. The answer tells whether it owned a position. -/
def removePeer (membership : Membership) (peer : String) : Bool × Membership :=
  (membership.ring.contains peer, { membership with ring := membership.ring.erase peer })

/-- A change of the peers that a node knows. -/
inductive Change where
  | set (peers : List String)
  | add (peers : List String)
  | remove (peer : String)

/-- Apply a change of the peers. -/
def change (membership : Membership) : Change → Membership
  | .set peers => membership.setPeers peers
  | .add peers => membership.addPeers peers
  | .remove peer => (membership.removePeer peer).2

/-- Decide who owns a key. -/
def pick (membership : Membership) (key : String) : Owner :=
  match membership.ring.owner? (utf8 key) with
  | some peer => if peer = membership.selfId then .here else .peer peer
  | none => .here

/-- The peers in increasing order. -/
def peers (membership : Membership) : List String :=
  membership.ring.members

/-- Whether there are no peers. -/
def isStandalone (membership : Membership) : Bool :=
  membership.ring.isEmpty

/-- The diagnostic text of a membership. -/
def describe (membership : Membership) : String :=
  s!"PeerPicker \x7b self_id: PeerId({Text.quoted membership.selfId}), " ++
    s!"replicas: {membership.ring.replicas}, ring: {membership.ring.describe} \x7d"

end Membership

end ReadThrough
