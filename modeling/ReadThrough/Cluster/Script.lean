import ReadThrough.Fault

/-!
# Scripted sources

A scripted source answers each call for a key with the next of the reactions listed for that key,
the last one again and again once they are used up, and calls for other keys with one standard
reaction. A reaction may take time and may need a permit before it gives its verdict. The lifetime
of a value counts from the verdict.
-/

namespace ReadThrough

/-- The payload that a scripted source gives for a key. -/
inductive Payload where
  | fixed (data : ByteArray)
  /-- a text followed by the key -/
  | echo (lead : String)

/-- The bytes of a payload for a key. -/
def Payload.data (key : String) : Payload → ByteArray
  | .fixed data => data
  | .echo lead => (lead ++ key).toUTF8

/-- How a scripted source reacts to a call: after a delay, with a permit of a gate if one is named,
it fails or gives a payload that may have a lifetime. -/
structure Reaction (F : Type) where
  delay : Millis
  gate : Option String
  verdict : Except F (Payload × Option Millis)

/-- What a reaction answers for a key at the moment of its verdict. -/
def Reaction.answer {F : Type} (reaction : Reaction F) (key : String) (now : Millis) :
    Except F Value :=
  reaction.verdict.map fun (payload, ttl) ↦ .make now (payload.data key) ttl

/-- The reactions of a source, with how often each listed key was called. -/
structure Script (F : Type) where
  standard : Reaction F
  keyed : List (String × List (Reaction F))
  used : List (String × Nat)

namespace Script

variable {F : Type}

/-- How often a key was called. -/
def uses (script : Script F) (key : String) : Nat :=
  (script.used.lookup key).getD 0

/-- The reaction to the next call for a key. -/
def reaction (script : Script F) (key : String) : Reaction F :=
  match script.keyed.lookup key with
  | none => script.standard
  | some reactions =>
      (reactions[script.uses key]? <|> reactions.getLast?).getD script.standard

/-- Count a call for a key. -/
def use (script : Script F) (key : String) : Script F :=
  { script with used := (key, script.uses key + 1) :: script.used.filter fun u ↦ u.1 ≠ key }

end Script

/-- A fault of a scripted peer, given what was asked for and of whom. -/
abbrev PeerFault := (group key peer : String) → Fault

end ReadThrough
