import ReadThrough.Flight.Interleaving
import ReadThrough.Shares

/-!
# Scripts of calls

A script operates on calls from outside: a call begins, its work answers, its token fires, or its
owner gives it up. After each operation the calls go on by themselves until none can. What calls do
by themselves (`Advances`) may happen in any order; a script runs them in one order (`settle`).
The operations on one key are a script of their own, in which the calls on that key are numbered
anew (`restrict`).
-/

namespace ReadThrough

/-- The flight that a call waits on. -/
def Call.awaited? {K R : Type} (call : Call K R) : Option Nat :=
  match call.stage with
  | .waiting flight => some flight
  | _ => none

/-- How a call ended, if it returned. -/
def Call.result? {K R : Type} (call : Call K R) : Option (CallResult R) :=
  match call.stage with
  | .returned result => some result
  | _ => none

namespace Calls

variable {K R : Type}

/-- The call that does this by itself, unless it is done to a call from outside. -/
def Action.mover? : Action K R → Option Nat
  | .enter number | .conclude number | .abandon number | .close number | .attend number
  | .leave number => some number
  | .call .. | .deliver .. | .cancel _ | .giveUp _ | .forsake _ => none

/-- One operation of a script. -/
inductive Operation (K R : Type) where
  | call (key : K) (cancelled : Bool) (immediate : Option R)
  | deliver (number : Nat) (answer : R)
  | cancel (number : Nat)
  | drop (number : Nat)
deriving Repr

/-- The calls that wait on a flight, in increasing order. -/
def waiters (state : Calls K R) (flight : Nat) : List Nat :=
  (List.range state.calls.size).filter fun number ↦
    (state.calls[number]?).any fun call ↦ call.awaited? == some flight

variable [BEq K]

/-- The key of the call that an operation begins. -/
def Operation.begun : Operation K R → List K
  | .call key .. => [key]
  | .deliver .. | .cancel _ | .drop _ => []

/-- The keys of the calls that a script begins, each key once. -/
def scriptKeys (operations : List (Operation K R)) : List K :=
  (operations.flatMap Operation.begun).eraseDups

/-- An operation as one on the calls of a key alone, given the keys of the calls that have begun. It
is none on that key if it is on a call for another key, or on a call that has not begun. -/
def Operation.within? (key : K) (begun : List K) : Operation K R → Option (Operation K R)
  | .call other cancelled immediate =>
      if other == key then some (.call other cancelled immediate) else none
  | .deliver number answer =>
      if begun[number]? == some key then some (.deliver (rank key begun number) answer) else none
  | .cancel number =>
      if begun[number]? == some key then some (.cancel (rank key begun number)) else none
  | .drop number =>
      if begun[number]? == some key then some (.drop (rank key begun number)) else none

/-- The operations on one key, after calls with these keys have begun. -/
def restrictFrom (key : K) : List K → List (Operation K R) → List (Operation K R)
  | _, [] => []
  | begun, operation :: rest =>
      (operation.within? key begun).toList ++ restrictFrom key (begun ++ operation.begun) rest

/-- The operations of a script on one key. -/
def restrict (key : K) (operations : List (Operation K R)) : List (Operation K R) :=
  restrictFrom key [] operations

/-- The keys of the calls, in the order in which they began. -/
def keys (state : Calls K R) : List K :=
  state.calls.toList.map Call.key

/-- The keys of the calls that have neither returned nor been dropped, each key once. -/
def pendingKeys (state : Calls K R) : List K :=
  ((state.calls.toList.filter Call.pending).map Call.key).eraseDups

/-- A call does something by itself. -/
def Advances (state following : Calls K R) : Prop :=
  ∃ (action : Action K R) (number : Nat), action.mover? = some number ∧
    state.act? action = some following

/-- No call can do anything by itself. -/
def Still (state : Calls K R) : Prop :=
  ∀ following, ¬state.Advances following

/-- The state just after an operation. -/
def perform (state : Calls K R) : Operation K R → Calls K R
  | .call key cancelled immediate => (state.call key cancelled immediate).2
  | .deliver number answer => (state.deliver number answer).2
  | .cancel number => state.cancel number
  | .drop number => state.drop number

/-- The state after a script, that began without calls. -/
def script (operations : List (Operation K R)) : Calls K R :=
  operations.foldl (fun state operation ↦ (state.perform operation).settle) empty

end Calls

end ReadThrough
