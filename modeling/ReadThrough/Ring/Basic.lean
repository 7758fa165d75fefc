import ReadThrough.Ring.Hash

/-!
# The ring of replica positions

A ring keeps, for each 64-bit position, the member that owns it. Every member is placed at
one position for each of its replicas, and a key belongs to the owner of the first position at or
after the hash of the key, wrapping past the largest word. The positions are kept in increasing
order, so a ring is determined by its position map alone.
-/

namespace ReadThrough

/-- The bytes of a text in UTF-8. -/
def utf8 (text : String) : List UInt8 :=
  text.toUTF8.toList

namespace Ring

/-- The number of replicas of a member where no other is given. -/
def defaultReplicas : Nat := 50

/-- One owned position of the circle. -/
structure Placement where
  position : UInt64
  owner : String
deriving DecidableEq, Repr

/-- Put a placement into a list ordered by position, replacing one at the same position. -/
def place (new : Placement) : List Placement → List Placement
  | [] => [new]
  | old :: rest =>
      if new.position < old.position then new :: old :: rest
      else if new.position = old.position then new :: rest
      else old :: place new rest

end Ring

/-- Replica positions in increasing order, with the hash and replica count that place members. -/
structure Ring where
  replicas : Nat
  hash : Ring.Hash
  placements : List Ring.Placement

namespace Ring

/-- A ring without members. -/
def empty (replicas : Nat) (hash : Hash) : Ring :=
  ⟨replicas, hash, []⟩

/-- The label that is hashed to place one replica of a member: the decimal index followed by the
name of the member. -/
def replicaLabel (index : Nat) (member : String) : List UInt8 :=
  utf8 (toString index ++ member)

/-- The placements of one member, in the order of its replica indices. -/
def placementsOf (ring : Ring) (member : String) : List Placement :=
  (List.range ring.replicas).map fun index ↦ ⟨ring.hash (replicaLabel index member), member⟩

/-- Place every replica of one member. A position that is already taken changes hands. -/
def insert (ring : Ring) (member : String) : Ring :=
  { ring with
    placements := (ring.placementsOf member).foldl (fun ps p ↦ place p ps) ring.placements }

/-- Place the members in the order given. -/
def insertMany (ring : Ring) (members : List String) : Ring :=
  members.foldl insert ring

/-- Take away every position that a member owns. -/
def erase (ring : Ring) (member : String) : Ring :=
  { ring with placements := ring.placements.filter fun p ↦ p.owner ≠ member }

/-- The number of positions on the ring. -/
def size (ring : Ring) : Nat :=
  ring.placements.length

/-- The number of positions that a member owns. -/
def share (ring : Ring) (member : String) : Nat :=
  ring.placements.countP fun p ↦ p.owner = member

/-- No member owns a position. -/
def isEmpty (ring : Ring) : Bool :=
  ring.placements.isEmpty

/-- The placement that serves a point of the circle: the first one at or after it, or the
smallest one when there is none. -/
def serving? (ring : Ring) (point : UInt64) : Option Placement :=
  (ring.placements.find? fun p ↦ point ≤ p.position) <|> ring.placements.head?

/-- The member that owns a key. -/
def owner? (ring : Ring) (key : List UInt8) : Option String :=
  (ring.serving? (ring.hash key)).map Placement.owner

/-- Put a name into an ordered list without repeating it. -/
def insertName (name : String) : List String → List String
  | [] => [name]
  | other :: rest =>
      if name < other then name :: other :: rest
      else if name = other then other :: rest
      else other :: insertName name rest

/-- The members that own a position, in increasing order and without repetition. -/
def members (ring : Ring) : List String :=
  ring.placements.foldl (fun names p ↦ insertName p.owner names) []

/-- Whether a member owns a position. -/
def contains (ring : Ring) (member : String) : Bool :=
  ring.placements.any fun p ↦ p.owner = member

/-- The diagnostic text of a ring. -/
def describe (ring : Ring) : String :=
  s!"HashRing \x7b replicas: {ring.replicas}, positions: {ring.size} \x7d"

end Ring

end ReadThrough
