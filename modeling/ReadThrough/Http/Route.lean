import ReadThrough.Http.BasePath
import ReadThrough.Http.Message
import ReadThrough.Http.Percent

/-!
# Routes

Peers ask for `group/key` under the base path, each percent-encoded; operators ask for health,
metrics and statistics under fixed paths, which win over the base path. Only GET is served.
-/

namespace ReadThrough.Http

/-- What a request asks for. -/
inductive Route where
  | health
  | metrics
  | stats
  | entry (group key : String)
  /-- refused with a status and a message -/
  | refused (status : Nat) (message : String)
deriving DecidableEq, Repr

/-- What is left of a list after a leading part. -/
def stripLeading? : List Char → List Char → Option (List Char)
  | [], rest => some rest
  | _ :: _, [] => none
  | a :: lead, b :: rest => if a = b then stripLeading? lead rest else none

/-- The parts before and after the first slash. -/
def splitAtSlash? : List Char → Option (List Char × List Char)
  | [] => none
  | c :: rest =>
      if c = '/' then some ([], rest)
      else (splitAtSlash? rest).map fun (before, after) ↦ (c :: before, after)

/-- Read `group/key`. -/
def routeEntry (rest : List Char) : Route :=
  match splitAtSlash? rest with
  | none => .refused 400 "expected \x7bgroup\x7d/\x7bkey\x7d"
  | some (group, key) =>
      match Percent.decode? (String.ofList group), Percent.decode? (String.ofList key) with
      | some group, some key => .entry group key
      | _, _ => .refused 400 "invalid percent-encoding"

/-- Read a path under a normal base path. -/
def routePath (basePath path : String) : Route :=
  if path = "/healthz" ∨ path = "/livez" ∨ path = "/readyz" then .health
  else if path = "/metrics" then .metrics
  else if path = "/stats" then .stats
  else
    match stripLeading? basePath.toList path.toList with
    | some rest => routeEntry rest
    | none => .refused 404 "not found"

/-- Read a request. -/
def route (basePath method path : String) : Route :=
  if method = "GET" then routePath basePath path
  else .refused 405 "method not allowed"

end ReadThrough.Http
