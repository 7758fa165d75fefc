import ReadThrough.Cache.Value

/-!
# Faults

What can go wrong between asking for a key and having its value, by cause. The same fault may be
handed to every caller that waited for it.
-/

namespace ReadThrough

/-- Why there is no value. -/
inductive Fault where
  /-- the source has no value for the key -/
  | notFound (key : String)
  /-- a peer could not be reached or gave no usable answer -/
  | transportFailure (peer reason : String)
  /-- the caller's token fired, or its time was up -/
  | cancelled
  /-- the loader failed otherwise than by not finding the key -/
  | loaderFailure (key reason : String)
  | groupNotFound (name : String)
  | configuration (reason : String)
  | internal (reason : String)
deriving DecidableEq, Repr

namespace Fault

/-- The text shown for a fault. -/
def message : Fault → String
  | .notFound key => "Key not found: " ++ key
  | .transportFailure peer reason =>
      "Transport failure talking to peer " ++ peer ++ ": " ++ reason
  | .cancelled => "Request cancelled"
  | .loaderFailure key reason => "Loader failed for key " ++ key ++ ": " ++ reason
  | .groupNotFound name => "Group not found: " ++ name
  | .configuration reason => "Configuration error: " ++ reason
  | .internal reason => "Internal error: " ++ reason

/-- The name of the cause of a fault. -/
def kind : Fault → String
  | .notFound _ => "NotFound"
  | .transportFailure .. => "TransportFailure"
  | .cancelled => "Cancelled"
  | .loaderFailure .. => "LoaderFailure"
  | .groupNotFound _ => "GroupNotFound"
  | .configuration _ => "Config"
  | .internal _ => "Internal"

/-- Whether the key is known to have no value. -/
def isNotFound : Fault → Bool
  | .notFound _ => true
  | _ => false

end Fault

/-- Why a loader has no value. -/
inductive LoadFault where
  | notFound
  | failed (reason : String)
deriving DecidableEq, Repr

/-- The text shown for a loader's fault. -/
def LoadFault.message : LoadFault → String
  | .notFound => "not found"
  | .failed reason => reason

/-- The text shown for a call whose token fired before its work was done. -/
def cancelledCallMessage : String := "call cancelled"

/-- What asking for a key comes to. -/
abbrev Outcome := Except Fault Value

/-- What a loader answers. -/
abbrev LoadAnswer := Except LoadFault Value

end ReadThrough
