import ReadThrough.Fault
import ReadThrough.Group.Settings
import ReadThrough.Http.BasePath
import ReadThrough.Ring.Basic
import ReadThrough.Text.Blank

/-!
# Settings of a node

What a node is started with: who it is, who its peers are, where it listens, and the groups it
serves. Settings that a node cannot run with are refused with the first reason that applies, in
the order of the fields and of the groups.
-/

namespace ReadThrough

/-- The address a node listens on where no other is given. -/
def defaultListen : String := "0.0.0.0:8080"

/-- The time limit of a fetch from a peer where no other is given. -/
def defaultPeerTimeoutMs : Nat := 5000

/-- The time limit of a request that is served where no other is given. -/
def defaultRequestTimeoutMs : Nat := 10000

/-- The settings of one group of a node. -/
structure GroupSpec where
  name : String
  cacheBytes : Nat
  hotRatio : Nat
  hotAdmission : Admission
  fallbackToLocal : Bool
  /-- how long an absence is remembered, if at all -/
  negativeTtlMs : Option Nat
  /-- the directory whose files the group serves -/
  dataDir : Option String
deriving DecidableEq, Repr

/-- A group of which only the name is given. -/
def GroupSpec.named (name : String) : GroupSpec :=
  { name
    cacheBytes := defaultCacheBytes
    hotRatio := defaultHotRatio
    hotAdmission := .always
    fallbackToLocal := true
    negativeTtlMs := none
    dataDir := none }

/-- What the group is made with. -/
def GroupSpec.settings (spec : GroupSpec) : GroupSettings :=
  { GroupSettings.default with
    cacheBytes := spec.cacheBytes
    hotRatio := spec.hotRatio
    hotAdmission := spec.hotAdmission
    fallbackToLocal := spec.fallbackToLocal
    negativeTtl := spec.negativeTtlMs }

/-- The settings of a node. -/
structure NodeSettings where
  /-- the base URL under which peers know this node -/
  selfUrl : String
  /-- every member of the ring, this node included -/
  peers : List String
  /-- the address the node listens on -/
  listen : String
  /-- the leading part of the paths of peer requests -/
  basePath : String
  replicas : Nat
  /-- the time limit of a fetch from a peer -/
  peerTimeoutMs : Nat
  /-- the time limit of a request that is served -/
  requestTimeoutMs : Nat
  groups : List GroupSpec
deriving DecidableEq, Repr

namespace NodeSettings

/-- The settings where nothing is given. -/
def default : NodeSettings :=
  { selfUrl := ""
    peers := []
    listen := defaultListen
    basePath := Http.defaultBasePath
    replicas := Ring.defaultReplicas
    peerTimeoutMs := defaultPeerTimeoutMs
    requestTimeoutMs := defaultRequestTimeoutMs
    groups := [] }

/-- The members of the ring. A node without peers is alone on it. -/
def ringMembers (settings : NodeSettings) : List String :=
  if settings.peers = [] then [settings.selfUrl] else settings.peers

/-- What is wrong with a group that follows groups of the given names. -/
def groupProblem? (earlier : List String) (spec : GroupSpec) : Option String :=
  if spec.name = "" then some "group name must not be empty"
  else if spec.name ∈ earlier then some ("duplicate group: " ++ spec.name)
  else if spec.hotRatio = 0 then some ("group " ++ spec.name ++ ": hot_ratio must be at least 1")
  else if spec.hotAdmission = .oneIn 0 then
    some ("group " ++ spec.name ++ ": one_in must be at least 1")
  else none

/-- What is wrong with the first faulty group, given the names of the groups before. -/
def groupsProblem? (earlier : List String) : List GroupSpec → Option String
  | [] => none
  | spec :: rest =>
      match groupProblem? earlier spec with
      | some problem => some problem
      | none => groupsProblem? (spec.name :: earlier) rest

/-- The first reason why a node cannot run with the settings. -/
def problem? (settings : NodeSettings) : Option String :=
  if settings.selfUrl.toList.all Text.isBlank then some "self_url must not be empty"
  else if settings.replicas = 0 then some "replicas must be at least 1"
  else groupsProblem? [] settings.groups

/-- Accept the settings, or refuse them with a reason. -/
def validate (settings : NodeSettings) : Except Fault Unit :=
  match settings.problem? with
  | some reason => .error (.configuration reason)
  | none => .ok ()

end NodeSettings

end ReadThrough
