import ReadThrough.Flight.Calls

/-!
# Interleavings of calls

Everything that can happen to calls on one flight table: a call begins, its work answers, its
token fires, its owner gives it up, or it makes one transition by itself. Nothing bounds the order
in which these happen. A history lists every state of one such run, the latest one first.
-/

namespace ReadThrough.Calls

variable {K R : Type}

/-- One thing that happens to calls. -/
inductive Action (K R : Type) where
  | call (key : K) (cancelled : Bool) (immediate : Option R)
  | deliver (number : Nat) (answer : R)
  | cancel (number : Nat)
  | enter (number : Nat)
  | conclude (number : Nat)
  | abandon (number : Nat)
  | giveUp (number : Nat)
  | close (number : Nat)
  | attend (number : Nat)
  | leave (number : Nat)
  | forsake (number : Nat)
deriving Repr

variable [BEq K]

/-- The state after an action, if it can happen. -/
def act? (state : Calls K R) : Action K R → Option (Calls K R)
  | .call key cancelled immediate => some (state.call key cancelled immediate).2
  | .deliver number answer => some (state.deliver number answer).2
  | .cancel number => some (state.cancel number)
  | .enter number => state.enter? number
  | .conclude number => state.conclude? number
  | .abandon number => state.abandon? number
  | .giveUp number => state.giveUp? number
  | .close number => state.close? number
  | .attend number => state.attend? number
  | .leave number => state.leave? number
  | .forsake number => state.forsake? number

/-- The states of a run that began without calls, the latest one first. -/
inductive History : List (Calls K R) → Prop where
  | start : History [empty]
  | next {state following : Calls K R} {past : List (Calls K R)} {action : Action K R} :
      History (state :: past) → state.act? action = some following →
      History (following :: state :: past)

/-- The states of a run that goes on from these with one action after the other. -/
def replay : List (Calls K R) → List (Action K R) → Option (List (Calls K R))
  | states, [] => some states
  | [], _ :: _ => none
  | state :: past, action :: rest => do
      let following ← state.act? action
      replay (following :: state :: past) rest

/-- A call leads a flight for a key. -/
def Leads (state : Calls K R) (number : Nat) (key : K) (flight : Nat) : Prop :=
  ∃ call, state.calls[number]? = some call ∧ call.key = key ∧ call.stage = .leading flight

/-- A call waits on a flight. -/
def WaitsOn (state : Calls K R) (number flight : Nat) : Prop :=
  ∃ call, state.calls[number]? = some call ∧ call.stage = .waiting flight

/-- The work of a call was started for a key and has not come to an end. A leader whose record is
gone is done with its work. -/
def Works (state : Calls K R) (number : Nat) (key : K) : Prop :=
  number ∈ state.started ∧ ∃ call, state.calls[number]? = some call ∧ call.key = key ∧
    call.pending ∧ ∀ flight ending, call.stage ≠ .closing flight ending

end ReadThrough.Calls
