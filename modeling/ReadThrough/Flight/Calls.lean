import ReadThrough.Flight.Table

/-!
# Calls that share flights

A machine of numbered calls on one flight table. Each call carries a token that may fire, and
work that answers at once or when its answer is delivered. A call enters the table, takes the
outcome of its own work or of the flight it waits on, or goes back to contend after its flight was
lost; while it leads or waits it may also notice that its token fired. A leader that is done first
takes the record of its key away and then tells what became of its flight, and others may move in
between. Transitions of different calls may interleave in any order, and a call whose token has
fired and whose answer is there may notice either first. A script of operations runs every call
that can move, in rounds and in increasing order of number, until none can.
-/

namespace ReadThrough

/-- How a call ended. -/
inductive CallResult (R : Type) where
  | outcome (value : R)
  | cancelled
deriving DecidableEq, Repr

/-- Why a leader is done with its flight. -/
inductive Ending (R : Type) where
  /-- its work answered -/
  | worked (answer : R)
  /-- its token fired -/
  | cancelled
  /-- it was given up by its owner -/
  | dropped
deriving DecidableEq, Repr

namespace Ending

variable {R : Type}

/-- What becomes of the flight. -/
def status : Ending R → Flight R
  | .worked answer => .landed answer
  | .cancelled | .dropped => .lost

/-- What the leader returns, if it returns. -/
def result? : Ending R → Option (CallResult R)
  | .worked answer => some (.outcome answer)
  | .cancelled => some .cancelled
  | .dropped => none

end Ending

/-- Where a call is. -/
inductive CallStage (R : Type) where
  /-- about to ask the table for its key -/
  | entering
  | leading (flight : Nat)
  /-- its record is gone, and it is about to tell what became of its flight -/
  | closing (flight : Nat) (ending : Ending R)
  | waiting (flight : Nat)
  | returned (result : CallResult R)
  /-- given up by its owner -/
  | dropped
deriving DecidableEq, Repr

/-- A call: its key, whether its token fired, where it is, what its work answers at once, and the
answer that was delivered to its work. -/
structure Call (K R : Type) where
  key : K
  cancelled : Bool
  stage : CallStage R
  immediate : Option R
  delivered : Option R
deriving DecidableEq, Repr

namespace Call

variable {K R : Type}

/-- The answer of the work, once there is one. -/
def answer (call : Call K R) : Option R :=
  call.immediate <|> call.delivered

/-- Whether the call has neither returned nor been dropped. -/
def pending (call : Call K R) : Bool :=
  match call.stage with
  | .entering | .leading _ | .closing .. | .waiting _ => true
  | .returned _ | .dropped => false

end Call

/-- A flight table with its calls by number, the calls whose work was started and the calls that
returned, both in order. -/
structure Calls (K R : Type) where
  table : FlightTable K R
  calls : Array (Call K R)
  started : Array Nat
  returned : Array Nat

namespace Calls

variable {K R : Type}

/-- No calls on an empty table. -/
def empty : Calls K R :=
  ⟨.empty, #[], #[], #[]⟩

/-- Move a call to a stage. -/
def setStage (state : Calls K R) (number : Nat) (stage : CallStage R) : Calls K R :=
  { state with calls := state.calls.modify number fun call ↦ { call with stage } }

/-- Let a call return. -/
def finish (state : Calls K R) (number : Nat) (result : CallResult R) : Calls K R :=
  { state.setStage number (.returned result) with returned := state.returned.push number }

/-- Begin a call and answer its number. -/
def call (state : Calls K R) (key : K) (cancelled : Bool) (immediate : Option R) :
    Nat × Calls K R :=
  (state.calls.size,
    { state with
      calls := state.calls.push
        { key, cancelled, stage := .entering, immediate, delivered := none } })

/-- Deliver an answer to the work of a pending call. Each work takes one delivery. -/
def deliver (state : Calls K R) (number : Nat) (answer : R) : Bool × Calls K R :=
  match state.calls[number]? with
  | none => (false, state)
  | some call =>
      if call.pending && call.delivered.isNone then
        (true,
          { state with
            calls := state.calls.modify number fun c ↦ { c with delivered := some answer } })
      else (false, state)

/-- Fire the token of a call. -/
def cancel (state : Calls K R) (number : Nat) : Calls K R :=
  { state with calls := state.calls.modify number fun call ↦ { call with cancelled := true } }

variable [BEq K]

/-! ## Transitions of one call -/

/-- A call asks the table for its key, and leads a new flight or waits on the one there is. -/
def enter? (state : Calls K R) (number : Nat) : Option (Calls K R) := do
  let call ← state.calls[number]?
  match call.stage with
  | .entering =>
      match state.table.enter call.key with
      | (.wait flight, table) =>
          some ({ state with table }.setStage number (.waiting flight))
      | (.lead flight, table) =>
          some
            ({ state with table, started := state.started.push number }.setStage number
              (.leading flight))
  | _ => none

/-- A leader takes its record away, for a reason that the call itself decides on. -/
def release? (state : Calls K R) (number : Nat) (reason : Call K R → Option (Ending R)) :
    Option (Calls K R) := do
  let call ← state.calls[number]?
  match call.stage with
  | .leading flight =>
      let ending ← reason call
      some ({ state with table := state.table.erase call.key }.setStage number
        (.closing flight ending))
  | _ => none

/-- A leader whose work answered takes its record away. -/
def conclude? (state : Calls K R) (number : Nat) : Option (Calls K R) :=
  state.release? number fun call ↦ call.answer.map .worked

/-- A leader whose token fired takes its record away. -/
def abandon? (state : Calls K R) (number : Nat) : Option (Calls K R) :=
  state.release? number fun call ↦ if call.cancelled then some .cancelled else none

/-- A leader that is given up takes its record away. -/
def giveUp? (state : Calls K R) (number : Nat) : Option (Calls K R) :=
  state.release? number fun _ ↦ some .dropped

/-- A leader whose record is gone tells what became of its flight and ends. -/
def close? (state : Calls K R) (number : Nat) : Option (Calls K R) := do
  let call ← state.calls[number]?
  match call.stage with
  | .closing flight ending =>
      let told := { state with table := state.table.resolve flight ending.status }
      match ending.result? with
      | some result => some (told.finish number result)
      | none => some (told.setStage number .dropped)
  | _ => none

/-- A call that waits takes the outcome of its flight, or contends anew if the flight was lost. -/
def attend? (state : Calls K R) (number : Nat) : Option (Calls K R) := do
  let call ← state.calls[number]?
  match call.stage with
  | .waiting flight =>
      match state.table.status flight with
      | .landed answer => some (state.finish number (.outcome answer))
      | .lost => some (state.setStage number .entering)
      | .aloft => none
  | _ => none

/-- A call that waits notices that its token fired. -/
def leave? (state : Calls K R) (number : Nat) : Option (Calls K R) := do
  let call ← state.calls[number]?
  match call.stage with
  | .waiting _ => if call.cancelled then some (state.finish number .cancelled) else none
  | _ => none

/-- A call that does not lead is given up. -/
def forsake? (state : Calls K R) (number : Nat) : Option (Calls K R) := do
  let call ← state.calls[number]?
  match call.stage with
  | .entering | .waiting _ => some (state.setStage number .dropped)
  | _ => none

/-! ## Scripts -/

/-- Give a pending call up. A leader that is given up loses its flight. -/
def drop (state : Calls K R) (number : Nat) : Calls K R :=
  ((state.giveUp? number).bind (·.close? number) <|> state.forsake? number).getD state

/-- One transition of a call by itself, if it can move. A leader whose work answered lands its
flight in one go. -/
def step? (state : Calls K R) (number : Nat) : Option (Calls K R) :=
  state.enter? number <|> (state.conclude? number).bind (·.close? number)
    <|> state.attend? number

/-- A call that leads or waits notices that its token fired. A leader loses its flight. -/
def heed? (state : Calls K R) (number : Nat) : Option (Calls K R) :=
  (state.abandon? number).bind (·.close? number) <|> state.leave? number

/-- One transition of a call in a script: where both are possible, it notices its token first. -/
def move? (state : Calls K R) (number : Nat) : Option (Calls K R) :=
  state.heed? number <|> state.step? number

/-- Move a call up to `limit` times, until it returns or must wait. -/
def runCall : Nat → Calls K R → Nat → Calls K R
  | 0, state, _ => state
  | limit + 1, state, number =>
      match state.move? number with
      | none => state
      | some next => runCall limit next number

/-- Whether a call can move. -/
def canMove (state : Calls K R) (number : Nat) : Bool :=
  (state.move? number).isSome

/-- The calls that can move, in increasing order. -/
def movable (state : Calls K R) : List Nat :=
  (List.range state.calls.size).filter state.canMove

/-- One round: every call that can move when its turn comes is run until it must wait. A call moves
at most three times in a row: it finds its flight lost, asks the table, and returns. -/
def round (state : Calls K R) : Calls K R :=
  (List.range state.calls.size).foldl (runCall 3) state

/-- Up to `limit` rounds, as long as a call can move. -/
def rounds : Nat → Calls K R → Calls K R
  | 0, state => state
  | limit + 1, state =>
      if state.movable.isEmpty then state else rounds limit state.round

/-- Run every call that can move until none can. Each round ends a call or, of the calls whose
flight was lost, makes one a leader and the others wait, so two rounds for each call are
enough. -/
def settle (state : Calls K R) : Calls K R :=
  rounds (2 * state.calls.size + 2) state

/-- The numbers of the calls that have neither returned nor been dropped. -/
def pendingCalls (state : Calls K R) : List Nat :=
  (List.range state.calls.size).filter fun number ↦
    (state.calls[number]?).any Call.pending

end Calls

end ReadThrough
