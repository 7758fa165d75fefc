import ReadThrough.Settings.Yaml

/-!
# The command line

A node is started with options, each of which takes a value, and one flag. What is not given is
taken from the environment, and some options have a value of their own. Options override the
settings of the file that one of them names.
-/

namespace ReadThrough

/-- What a command line says. -/
structure Arguments where
  /-- the file of settings -/
  config : Option String
  listen : Option String
  selfUrl : Option String
  peers : Option (List String)
  /-- the group that is served where no group is set -/
  defaultGroup : String
  logLevel : String
  logJson : Bool
deriving DecidableEq, Repr

/-- What a command line asks for. -/
inductive Command where
  | run (arguments : Arguments)
  | showHelp
  | showVersion
  /-- not a command line of this program -/
  | refused
deriving DecidableEq, Repr

namespace CommandLine

/-- An option that takes a value. -/
inductive Setting where
  | config
  | listen
  | selfUrl
  | peers
  | defaultGroup
  | logLevel
deriving DecidableEq, Repr

/-- The name of an option and the variable of the environment that stands in for it. -/
def Setting.names : Setting → String × String
  | .config => ("--config", "PEERCACHE_CONFIG")
  | .listen => ("--listen", "PEERCACHE_LISTEN")
  | .selfUrl => ("--self-url", "PEERCACHE_SELF_URL")
  | .peers => ("--peers", "PEERCACHE_PEERS")
  | .defaultGroup => ("--default-group", "PEERCACHE_DEFAULT_GROUP")
  | .logLevel => ("--log-level", "LOG_LEVEL")

/-- All options that take a value. -/
def Setting.all : List Setting :=
  [.config, .listen, .selfUrl, .peers, .defaultGroup, .logLevel]

/-- The option of a name. -/
def Setting.ofName? (name : String) : Option Setting :=
  Setting.all.find? fun setting ↦ setting.names.1 = name

/-- The options read so far, in order, and whether the flag was among them. -/
structure Given where
  values : List (Setting × String)
  logJson : Bool

/-- Take in an option with its value. Only the list of peers may be given again. -/
def Given.add? (given : Given) (setting : Setting) (value : String) : Option Given :=
  if setting ≠ .peers && given.values.any fun v ↦ v.1 = setting then none
  else some { given with values := given.values ++ [(setting, value)] }

/-- Whether an argument is an option rather than a value. -/
def isOption (argument : String) : Bool :=
  match argument.toList with
  | '-' :: _ :: _ => true
  | _ => false

/-- The parts of an argument before and after the first equals sign. -/
def splitValue (argument : String) : String × Option String :=
  let cs := argument.toList
  (String.ofList (cs.takeWhile (· ≠ '=')),
    match cs.dropWhile (· ≠ '=') with
    | [] => none
    | _ :: value => some (String.ofList value))

/-- What one argument comes to. -/
inductive Piece where
  /-- an option whose value is the next argument -/
  | awaits (setting : Setting)
  /-- an option together with its value -/
  | holds (setting : Setting) (value : String)
  /-- the flag -/
  | logJson
  /-- nothing may follow -/
  | last
  | ends (command : Command)

/-- Tell what an argument is. -/
def Piece.ofArgument (argument : String) : Piece :=
  match argument.toList with
  | ['-', '-'] => .last
  | '-' :: '-' :: _ =>
      let (name, value) := splitValue argument
      match Setting.ofName? name, value with
      | some setting, some value => .holds setting value
      | some setting, none => .awaits setting
      | none, some _ => .ends .refused
      | none, none =>
          if name = "--help" then .ends .showHelp
          else if name = "--version" then .ends .showVersion
          else if name = "--log-json" then .logJson
          else .ends .refused
  | '-' :: 'h' :: _ => .ends .showHelp
  | '-' :: 'V' :: _ => .ends .showVersion
  | _ => .ends .refused

/-- Read the arguments in order, up to one that settles what the command line asks for. -/
def read (given : Given) : List String → Except Command Given
  | [] => .ok given
  | argument :: rest =>
      match Piece.ofArgument argument with
      | .ends command => .error command
      | .last => if rest.isEmpty then .ok given else .error .refused
      | .logJson =>
          if given.logJson then .error .refused else read { given with logJson := true } rest
      | .holds setting value =>
          match given.add? setting value with
          | some given => read given rest
          | none => .error .refused
      | .awaits setting =>
          match rest with
          | [] => .error .refused
          | value :: rest =>
              if isOption value then .error .refused
              else
                match given.add? setting value with
                | some given => read given rest
                | none => .error .refused

/-- The environment: variables with their values. -/
abbrev Environment := List (String × String)

/-- The values of an option, on the command line or else in the environment. -/
def valuesOf (given : Given) (environment : Environment) (setting : Setting) : List String :=
  match given.values.filterMap fun v ↦ if v.1 = setting then some v.2 else none with
  | [] => (environment.lookup setting.names.2).toList
  | values => values

/-- The variable of the environment that stands in for the flag. -/
def logJsonVariable : String := "LOG_JSON"

/-- Whether the flag is set, on the command line or else in the environment, where it must be
spelled as a truth value. -/
def logJson? (given : Given) (environment : Environment) : Option Bool :=
  if given.logJson then some true
  else
    match environment.lookup logJsonVariable with
    | none | some "false" => some false
    | some "true" => some true
    | some _ => none

/-- Every variable of the environment that counts. -/
def variableNames : List String :=
  logJsonVariable :: Setting.all.map fun setting ↦ setting.names.2

/-- The help text: every option with what it is for, the variable that stands in for it, and the
value that it has of its own. -/
def help : String :=
  "\n".intercalate
    ["Distributed read-through cache node", "", "Usage: peercache [OPTIONS]", "", "Options:",
      "      --config <CONFIG>                YAML configuration file [env: PEERCACHE_CONFIG=]",
      "      --listen <LISTEN>                Server bind address (overrides the config file) " ++
        "[env: PEERCACHE_LISTEN=]",
      "      --self-url <SELF_URL>            This node's base URL as seen by its peers " ++
        "[env: PEERCACHE_SELF_URL=]",
      "      --peers <PEERS>                  Comma-separated base URLs of every ring member " ++
        "[env: PEERCACHE_PEERS=]",
      "      --default-group <DEFAULT_GROUP>  Serve ./<name> as a group when no groups are " ++
        "configured [env: PEERCACHE_DEFAULT_GROUP=] [default: files]",
      "      --log-level <LOG_LEVEL>          Log level (trace, debug, info, warn, error) " ++
        "[env: LOG_LEVEL=] [default: info]",
      "      --log-json                       Output logs as JSON [env: LOG_JSON=]",
      "  -h, --help                           Print help",
      "  -V, --version                        Print version"]

/-- Read a command line. The name of a file must not be empty. -/
def parse (environment : Environment) (arguments : List String) : Command :=
  match read ⟨[], false⟩ arguments with
  | .error command => command
  | .ok given =>
      let value (setting : Setting) : Option String :=
        (valuesOf given environment setting).head?
      match logJson? given environment, value .config with
      | none, _ | _, some "" => .refused
      | some logJson, config =>
          let peers := valuesOf given environment .peers
          .run
            { config
              listen := value .listen
              selfUrl := value .selfUrl
              peers :=
                if peers.isEmpty then none else some (peers.flatMap fun list ↦ list.splitOn ",")
              defaultGroup := (value .defaultGroup).getD "files"
              logLevel := (value .logLevel).getD "info"
              logJson }

end CommandLine

/-- The settings of a file with what a command line overrides. A node without a URL of its own is
known by the address it listens on, and a node without groups serves one. -/
def Arguments.override (arguments : Arguments) (file : NodeSettings) : NodeSettings :=
  let listen := arguments.listen.getD file.listen
  let selfUrl := arguments.selfUrl.getD file.selfUrl
  { file with
    listen
    selfUrl := if selfUrl = "" then "http://" ++ listen else selfUrl
    peers :=
      match arguments.peers with
      | none => file.peers
      | some peers => (peers.map Text.trim).filter (· ≠ "")
    groups := if file.groups.isEmpty then [.named arguments.defaultGroup] else file.groups }

end ReadThrough
