import ReadThrough.Cluster.Simulation
import ReadThrough.CommandLine
import ReadThrough.Log.Filter
import ReadThrough.Net.Address

/-!
# A node from its launch to its end

A node reads its settings, checks them, joins the ring, sets its groups up, and listens. Whatever
it cannot do ends it with an error that names what it was at. What it does is logged, and so are
the events of the requests that it serves.
-/

namespace ReadThrough

/-- The version of the program. -/
def version : String := "0.1.0"

/-- The name of the program, which its log targets begin with. -/
def programName : String := "peercache"

/-- Why a node could not be launched. -/
structure Failure where
  /-- what the node was at, if that says more than the fault -/
  context : Option String
  fault : Fault
deriving DecidableEq, Repr

/-- The text of a failure. A context stands before its cause. -/
def Failure.message (failure : Failure) : String :=
  match failure.context with
  | none => "Error: " ++ failure.fault.message
  | some context =>
      let cause := "\n".intercalate ((failure.fault.message.splitOn "\n").map ("    " ++ ·))
      "Error: " ++ context ++ "\n\nCaused by:\n" ++ cause

/-! ## Records -/

namespace Log

/-- A target below the program. -/
def target (parts : List String) : String :=
  "::".intercalate (programName :: parts)

/-- A piece of information. -/
def info (parts : List String) (message : String) (fields : Fields) : Record :=
  .plain .info (target parts) message fields

/-- What is said before a node joins the ring. -/
def starting (settings : NodeSettings) : List Record :=
  [info [] (s!"Starting {programName} " ++ version) [],
    info [] ("  Self: " ++ settings.selfUrl) [],
    info [] ("  Listen: " ++ settings.listen) [],
    info [] s!"  Ring members: {settings.ringMembers.length}" []]

/-- What is said when the members of the ring are set. -/
def joined (membership : Membership) : Record :=
  info ["peers"] "Peer set replaced"
    [("self_id", .shown membership.selfId), ("members", .number membership.peers.length)]

/-- What is said when a group is set up. -/
def serving (spec : GroupSpec) (root : String) : List Record :=
  [info [] "Serving group" [("group", .shown spec.name), ("root", .shown root)],
    info ["group", "registry"] "Group created"
      [("group", .quoted spec.name), ("cache_bytes", .number spec.cacheBytes)]]

/-- What is said when a node listens. -/
def listening (address : Net.Address) : Record :=
  info ["server"] ("Server listening on " ++ address.text) []

/-- What is said when a node ends. -/
def ending : List Record :=
  [info [] "Received shutdown signal" [], info ["server"] "Server shutting down" [],
    info [] "Shutdown complete" []]

/-- The span of a get. -/
def getSpan (group key : String) : Span :=
  ⟨target ["group"], "get_value", [("key", .quoted key), ("group", .shown group)]⟩

/-- The span of a fetch. -/
def fetchSpan (peer group key : String) : Span :=
  ⟨target ["peers", "http"], "fetch",
    [("group", .quoted group), ("key", .quoted key), ("peer", .shown peer)]⟩

/-- What is said of an event on a node with a normal base path. -/
def ofEvent? (basePath : String) : Event → Option Record
  | .hit group key tier =>
      some ⟨.trace, target ["group"], "Cache hit", [("tier", .shown tier.word)],
        [getSpan group key]⟩
  | .load .. => none
  | .loadFailed group key reason =>
      some ⟨.debug, target ["group"], "Loader failed",
        [("key", .quoted key), ("reason", .shown reason)], [getSpan group key]⟩
  | .fetch _ peer group key =>
      some ⟨.debug, target ["peers", "http"],
        "Fetching " ++ Http.entryUrl peer basePath group key, [],
        [getSpan group key, fetchSpan peer group key]⟩
  | .fellBack group peer key fault =>
      some ⟨.warn, target ["group"], "Peer fetch failed, loading locally",
        [("peer", .shown peer), ("key", .quoted key), ("error", .shown fault.message)],
        [getSpan group key]⟩
  | .requestFailed group key fault =>
      some (.plain .warn (target ["server"]) "Peer request failed"
        [("group", .quoted group), ("key", .shown key), ("error", .shown fault.message)])

end Log

/-! ## Launch -/

/-- The directory whose files a group serves. -/
def GroupSpec.root (spec : GroupSpec) : String :=
  spec.dataDir.getD spec.name

/-- The settings that a command line asks for. -/
def Arguments.settings (arguments : Arguments) (tree : Files.Tree) :
    Except Failure NodeSettings :=
  let file : Except Failure NodeSettings :=
    match arguments.config with
    | none => .ok .default
    | some path =>
        match NodeSettings.load tree path with
        | .ok settings => .ok settings
        | .error fault => .error ⟨some ("Failed to load " ++ path), fault⟩
  match file with
  | .error failure => .error failure
  | .ok file =>
      let settings := arguments.override file
      match settings.validate with
      | .ok _ => .ok settings
      | .error fault => .error ⟨some "Invalid configuration", fault⟩

/-- The membership that settings describe. -/
def NodeSettings.membership (settings : NodeSettings) : Membership :=
  (Membership.alone settings.selfUrl settings.replicas Ring.defaultHash).setPeers
    settings.ringMembers

/-- What a launch comes to: what was logged, and the settings and the address of the node. -/
structure Launch where
  log : List Log.Record
  result : Except Failure (NodeSettings × Net.Address)

/-- Launch a node. -/
def Arguments.launch (arguments : Arguments) (tree : Files.Tree) : Launch :=
  match arguments.settings tree with
  | .error failure => ⟨[], .error failure⟩
  | .ok settings =>
      let log := Log.starting settings ++ [Log.joined settings.membership] ++
        settings.groups.flatMap fun spec ↦ Log.serving spec spec.root
      match Net.listenAddress settings.listen with
      | .error fault => ⟨log, .error ⟨none, fault⟩⟩
      | .ok address => ⟨log ++ [Log.listening address], .ok (settings, address)⟩

/-- The filter of the log. A level that is not known counts as plain information. -/
def Arguments.logFilter (arguments : Arguments) (directives : String) : Log.Filter :=
  .ofLevel ((Log.Level.ofName? arguments.logLevel).getD .info) directives

/-! ## Serving -/

/-- A peer that cannot be reached, whatever it is asked for. -/
def unreachable (basePath : String) : Script PeerFault :=
  { standard :=
      { delay := 0
        gate := none
        verdict := .error fun group key peer ↦
          .transportFailure peer (Http.noResponse (Http.entryUrl peer basePath group key)) }
    keyed := []
    used := [] }

/-- A node that serves files, with no peer in reach. -/
def NodeSettings.simulation (settings : NodeSettings) (tree : Files.Tree) : Simulation :=
  let basePath := Http.normalizeBasePath settings.basePath
  let node : Node :=
    { membership := settings.membership, carrier := .external, online := true, basePath
      requestTimeout := settings.requestTimeoutMs, registry := [] }
  settings.groups.foldl
    (fun s spec ↦
      (s.getOrCreate 0 spec.name spec.settings (.files ⟨tree, spec.root, none⟩)).2)
    (Simulation.empty.addNode node (unreachable basePath))

/-- The file that a request line leads to, if it is for a key of a group. -/
def NodeSettings.fileOf? (settings : NodeSettings) (method target : String) : Option String := do
  match Http.receive method target with
  | .malformed _ => none
  | .request method path =>
      match Http.route (Http.normalizeBasePath settings.basePath) method path with
      | .entry group key =>
          let spec ← settings.groups.find? fun spec ↦ spec.name = group
          let path ← FileLoader.resolve? ⟨.empty, spec.root, none⟩ key
          some (String.ofList path)
      | _ => none

/-- What is said of the events of a run. -/
def Simulation.records (s : Simulation) (basePath : String) : List Log.Record :=
  s.cluster.events.toList.filterMap (Log.ofEvent? (Http.normalizeBasePath basePath))

end ReadThrough
