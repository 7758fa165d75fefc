import ReadThrough.Cache.Value

/-!
# Departures

Every entry that leaves a cache other than by clearing leaves for one of three reasons. The
departures of an operation are listed in the order in which they happen, and every listener of
the cache is told of each of them.
-/

namespace ReadThrough

/-- Why an entry left a cache. -/
inductive Reason where
  /-- dropped to get back under the byte budget -/
  | evicted
  /-- deleted, or moved to another tier -/
  | removed
  /-- found expired by a read -/
  | expired
deriving DecidableEq, Repr

/-- The word for a reason. -/
def Reason.word : Reason → String
  | .evicted => "evicted"
  | .removed => "removed"
  | .expired => "expired"

/-- An entry that left, with the value it held when it left. -/
structure Departure where
  key : String
  value : Value
  reason : Reason
deriving DecidableEq

/-- One listener being told of one departure. -/
structure Notice where
  listener : Nat
  departure : Departure
deriving DecidableEq

/-- The notices that a list of departures causes: every listener in order of its index, for each
departure in turn. -/
def announce (listeners : Nat) (departures : List Departure) : List Notice :=
  departures.flatMap fun d ↦ (List.range listeners).map fun i ↦ ⟨i, d⟩

end ReadThrough
