import ReadThrough.Datum.Basic
import ReadThrough.Text.Quoted

/-!
# Log records

A record has a level, the part of the program that it comes from, a message, and named values; it
may have been made inside spans, which have names and values of their own. Records are written as
lines of text or as objects.
-/

namespace ReadThrough.Log

/-- How much a record matters, most first. -/
inductive Level where
  | error
  | warn
  | info
  | debug
  | trace
deriving DecidableEq, Repr

namespace Level

/-- The place of a level in the order, from one. -/
def rank : Level → Nat
  | .error => 1
  | .warn => 2
  | .info => 3
  | .debug => 4
  | .trace => 5

/-- The name of a level in a line of a log. -/
def word : Level → String
  | .error => "ERROR"
  | .warn => "WARN"
  | .info => "INFO"
  | .debug => "DEBUG"
  | .trace => "TRACE"

/-- All levels. -/
def all : List Level :=
  [.error, .warn, .info, .debug, .trace]

/-- The level of a name in any case. -/
def ofName? (name : String) : Option Level :=
  all.find? fun level ↦ level.word.toLower = name.toLower

end Level

/-- A value in a record. -/
inductive Content where
  /-- a text that is quoted in a line -/
  | quoted (text : String)
  /-- a text that stands in a line as it is -/
  | shown (text : String)
  | number (n : Nat)
deriving DecidableEq, Repr

/-- The text of a value in a line. -/
def Content.text : Content → String
  | .quoted text => Text.quoted text
  | .shown text => text
  | .number n => toString n

/-- A value as data. -/
def Content.toDatum : Content → Datum
  | .quoted text => .text text
  | .shown text => .text text
  | .number n => .natural n

/-- Named values, in order. -/
abbrev Fields := List (String × Content)

/-- Named values in a line, with blanks between them. -/
def Fields.text (fields : Fields) : String :=
  " ".intercalate (fields.map fun (name, content) ↦ name ++ "=" ++ content.text)

/-- Named values as fields of an object. -/
def Fields.toData (fields : Fields) : List (String × Datum) :=
  fields.map fun (name, content) ↦ (name, content.toDatum)

/-- A part of the work that records may be made inside. Spans matter as much as plain
information. -/
structure Span where
  target : String
  name : String
  fields : Fields
deriving DecidableEq, Repr

/-- A record. Spans are listed from the outermost one. -/
structure Record where
  level : Level
  target : String
  message : String
  fields : Fields
  spans : List Span
deriving DecidableEq, Repr

/-- A record outside any span. -/
def Record.plain (level : Level) (target message : String) (fields : Fields) : Record :=
  ⟨level, target, message, fields, []⟩

/-- The text of a span in a line. -/
def Span.text (span : Span) : String :=
  span.name ++ "\x7b" ++ span.fields.text ++ "\x7d:"

/-- A record as a line. -/
def Record.line (record : Record) : String :=
  let spans :=
    match record.spans with
    | [] => ""
    | spans => String.join (spans.map Span.text) ++ " "
  let fields :=
    match record.fields with
    | [] => ""
    | fields => " " ++ Fields.text fields
  record.level.word ++ " " ++ spans ++ record.target ++ ": " ++ record.message ++ fields

/-- A span as data. -/
def Span.toDatum (span : Span) : Datum :=
  .object (span.fields.toData ++ [("name", .text span.name)])

/-- A record as an object. The innermost span also stands alone. -/
def Record.toDatum (record : Record) : Datum :=
  let spans :=
    match record.spans.getLast? with
    | none => []
    | some inner =>
        [("span", inner.toDatum), ("spans", .list (record.spans.map Span.toDatum))]
  .object
    ([("level", .text record.level.word),
      ("fields", .object (("message", .text record.message) :: record.fields.toData)),
      ("target", .text record.target)] ++ spans)

end ReadThrough.Log
