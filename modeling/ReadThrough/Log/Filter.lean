import ReadThrough.Log.Record
import ReadThrough.Text.Blank

/-!
# Filters of a log

A filter is a list of directives, each of which limits the level of what comes from targets that
begin with a given text. Of the directives that fit a target the one with the longest text counts.
Directives are written `text=level`, as a level alone, which is for all targets, or as a text
alone, which lets everything from there through.
-/

namespace ReadThrough.Log

/-- A limit on the records from some targets; rank zero lets nothing through. -/
structure Directive where
  target : String
  limit : Nat
deriving DecidableEq, Repr

/-- The rank that a name or a digit stands for. -/
def limit? (text : String) : Option Nat :=
  if text.toLower = "off" then some 0
  else
    match Level.ofName? text with
    | some level => some level.rank
    | none => ["0", "1", "2", "3", "4", "5"].idxOf? text

/-- Whether a character may stand in the text of a target. -/
def isTargetChar (c : Char) : Bool :=
  c.isAlphanum || c = '_' || c = ':' || c = '-'

/-- Read a directive. -/
def Directive.parse? (text : String) : Option Directive :=
  let cs := (Text.trim text).toList
  let name := cs.takeWhile isTargetChar
  match name, cs.dropWhile isTargetChar with
  | [], _ => none
  | _, [] =>
      match limit? (String.ofList name) with
      | some limit => some ⟨"", limit⟩
      | none => some ⟨String.ofList name, Level.trace.rank⟩
  | _, '=' :: [] => some ⟨String.ofList name, Level.trace.rank⟩
  | _, '=' :: level => (limit? (String.ofList level)).map fun limit ↦ ⟨String.ofList name, limit⟩
  | _, _ => none

/-- A filter. -/
abbrev Filter := List Directive

namespace Filter

/-- The variable of the environment that holds directives. -/
def environmentName : String := "RUST_LOG"

/-- Add a directive in place of one for the same targets. -/
def add (filter : Filter) (directive : Directive) : Filter :=
  directive :: filter.filter fun d ↦ d.target ≠ directive.target

/-- The parts of a list of directives that are neither empty nor left out. -/
def parts (text : String) : List String :=
  (text.splitOn ",").filter (· ≠ "")

/-- Read directives between commas. Those that cannot be read are left out. -/
def read (text : String) : Filter :=
  ((parts text).filterMap Directive.parse?).foldl add []

/-- What is said about the directives that cannot be read. -/
def complaints (text : String) : List String :=
  (parts text).filterMap fun part ↦
    if (Directive.parse? part).isSome then none
    else some ("ignoring \x60" ++ part ++ "\x60: invalid filter directive")

/-- The filter of a program: its directives with a limit for everything else. -/
def ofLevel (level : Level) (directives : String) : Filter :=
  (read directives).add ⟨"", level.rank⟩

/-- The limit for a target. -/
def limit (filter : Filter) (target : String) : Nat :=
  let fits := filter.filter fun d ↦ d.target.toList.isPrefixOf target.toList
  let longest := fits.foldl
    (fun best d ↦
      match best with
      | some (b : Directive) => if b.target.length < d.target.length then some d else some b
      | none => some d)
    none
  (longest.map Directive.limit).getD 0

/-- Whether a filter lets a level from a target through. -/
def allows (filter : Filter) (level : Level) (target : String) : Bool :=
  level.rank ≤ filter.limit target

/-- What a filter leaves of a record: nothing, or the record with the spans that are let
through. -/
def keep? (filter : Filter) (record : Record) : Option Record :=
  if filter.allows record.level record.target then
    some { record with spans := record.spans.filter fun s ↦ filter.allows .info s.target }
  else none

end Filter

end ReadThrough.Log
