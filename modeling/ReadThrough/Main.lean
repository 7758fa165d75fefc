import ReadThrough.Launch

/-!
# The program

The program launches a node, writes its log, and serves requests. A request line is read from each
line of standard input, as a method and a target, and the response is written as its status line,
its headers and its body. Files are read when they are first asked for, and again on every later
request that leads to them.
-/

namespace ReadThrough.Program

/-- The variables of the environment that count, where they are set. -/
def environment : IO CommandLine.Environment :=
  CommandLine.variableNames.filterMapM fun name ↦ do
    return (← IO.getEnv name).map fun value ↦ (name, value)

/-- What is at a path of the file system, if anything is. -/
def readItem (path : String) : IO (Option Files.Item) := do
  match ← (IO.FS.readBinFile path).toBaseIO with
  | .ok data => return some (.file data)
  | .error (.inappropriateType ..) => return some .directory
  | .error _ => return none

/-- A tree that holds what is at a path now. -/
def refresh (tree : Files.Tree) (path : String) : IO Files.Tree := do
  match ← readItem path with
  | none => return tree.remove path
  | some item => return tree.add path item

/-- Write the records that a filter lets through. -/
def writeLog (json : Bool) (filter : Log.Filter) (records : List Log.Record) : IO Unit := do
  for record in records.filterMap filter.keep? do
    IO.println (if json then record.toDatum.toJson else record.line)

/-- Write a response. -/
def writeResponse (response : Http.Response) : IO Unit := do
  IO.println ("HTTP/1.1 " ++ Http.statusLine response.status)
  for (name, value) in response.headers do
    IO.println (name ++ ": " ++ value)
  IO.println ""
  let out ← IO.getStdout
  out.write response.body
  IO.println ""

/-- Serve requests until the input ends. -/
partial def serve (settings : NodeSettings) (write : List Log.Record → IO Unit)
    (input : IO.FS.Stream) (tree : Files.Tree) (node : Simulation) : IO Unit := do
  let line ← input.getLine
  if line.isEmpty then return
  let (method, target) :=
    match (Text.trim line).splitOn " " with
    | [] => ("", "")
    | method :: rest => (method, " ".intercalate rest)
  let tree ←
    match settings.fileOf? method target with
    | none => pure tree
    | some path => refresh tree path
  let (response, served) := (node.setTree tree).exchange 0 method target
  write ((served.records settings.basePath).drop (node.records settings.basePath).length)
  writeResponse response
  serve settings write input tree served

/-- Run a node as the command line says. -/
def run (arguments : Arguments) : IO UInt32 := do
  let directives := (← IO.getEnv Log.Filter.environmentName).getD ""
  for complaint in Log.Filter.complaints directives do
    IO.eprintln complaint
  let write := writeLog arguments.logJson (arguments.logFilter directives)
  let tree ←
    match arguments.config with
    | none => pure Files.Tree.empty
    | some path => refresh .empty path
  let launch := arguments.launch tree
  write launch.log
  match launch.result with
  | .error failure =>
      IO.eprintln failure.message
      return 1
  | .ok (settings, _) =>
      serve settings write (← IO.getStdin) tree (settings.simulation tree)
      write Log.ending
      return 0

end ReadThrough.Program

open ReadThrough in
/-- Read the command line and do what it asks for. -/
def main (arguments : List String) : IO UInt32 := do
  match CommandLine.parse (← Program.environment) arguments with
  | .run arguments => Program.run arguments
  | .showHelp =>
      IO.println CommandLine.help
      return 0
  | .showVersion =>
      IO.println (programName ++ " " ++ version)
      return 0
  | .refused =>
      IO.eprintln ("Usage: " ++ programName ++ " [OPTIONS]")
      return 2
