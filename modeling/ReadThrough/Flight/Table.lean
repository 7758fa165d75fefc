/-!
# The flight table

Concurrent calls for one key share one flight. The first call finds no record of its key, enters
one and leads; calls that find a record wait on its flight. The leader either lands the flight,
which takes the record away and gives every waiter the outcome, or loses it, which takes the
record away and leaves the waiters to contend for a new flight. Flights are numbered in the order
in which they begin, and what became of one stays known after its record is gone.
-/

namespace ReadThrough

/-- What became of a flight. -/
inductive Flight (R : Type) where
  /-- its leader is still at work -/
  | aloft
  /-- its leader finished with this outcome -/
  | landed (outcome : R)
  /-- its leader went away without an outcome -/
  | lost
deriving DecidableEq, Repr

/-- What a call that asks for a key becomes. -/
inductive Role where
  | lead (flight : Nat)
  | wait (flight : Nat)
deriving DecidableEq, Repr

/-- The records of the keys in flight, every flight so far, and how often a call led or waited. -/
structure FlightTable (K R : Type) where
  records : List (K × Nat)
  flights : Array (Flight R)
  executions : Nat
  waits : Nat

namespace FlightTable

variable {K R : Type}

/-- A table without flights. -/
def empty : FlightTable K R :=
  ⟨[], #[], 0, 0⟩

/-- The number of keys in flight. -/
def inFlight (table : FlightTable K R) : Nat :=
  table.records.length

/-- What became of a flight. A number that no flight has reads as lost. -/
def status (table : FlightTable K R) (flight : Nat) : Flight R :=
  table.flights.getD flight .lost

/-- Ask for a key: wait on its flight if it has one, or else lead a new one. -/
def enter [BEq K] (table : FlightTable K R) (key : K) : Role × FlightTable K R :=
  match table.records.lookup key with
  | some flight => (.wait flight, { table with waits := table.waits + 1 })
  | none =>
      let flight := table.flights.size
      (.lead flight,
        { table with
          records := table.records ++ [(key, flight)]
          flights := table.flights.push .aloft
          executions := table.executions + 1 })

/-- Take the record of a key away: calls for it start afresh from here on. -/
def erase [BEq K] (table : FlightTable K R) (key : K) : FlightTable K R :=
  { table with records := table.records.filter fun record ↦ !(record.1 == key) }

/-- Tell what became of a flight. -/
def resolve (table : FlightTable K R) (flight : Nat) (status : Flight R) : FlightTable K R :=
  { table with flights := table.flights.setIfInBounds flight status }

/-- Take the record of a key away and settle its flight. -/
def settle [BEq K] (table : FlightTable K R) (key : K) (flight : Nat) (status : Flight R) :
    FlightTable K R :=
  (table.erase key).resolve flight status

/-- The leader finished: the waiters get its outcome. -/
def land [BEq K] (table : FlightTable K R) (key : K) (flight : Nat) (outcome : R) :
    FlightTable K R :=
  table.settle key flight (.landed outcome)

/-- The leader went away: the waiters contend for a new flight. -/
def lose [BEq K] (table : FlightTable K R) (key : K) (flight : Nat) : FlightTable K R :=
  table.settle key flight .lost

/-- The diagnostic text of a table. -/
def describe (table : FlightTable K R) : String :=
  s!"Coalescer \x7b in_flight: {table.inFlight}, executions: {table.executions}, " ++
    s!"waits: {table.waits} \x7d"

end FlightTable

end ReadThrough
