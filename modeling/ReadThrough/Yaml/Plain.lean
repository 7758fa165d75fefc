import ReadThrough.Yaml.Node

/-!
# What scalars stand for

A plain scalar may be a number, a truth value or null; which of them it is read as depends on what
is asked for. A text is whatever is written, so that every scalar is one. Tags count in few places
only: a number and a truth value may also be written as literal lines with the tag of their kind,
and a scalar with the tag of null must be null.
-/

namespace ReadThrough.Yaml

/-- The tag of a kind of the core schema. -/
def coreTag (kind : String) : String :=
  "tag:yaml.org,2002:" ++ kind

/-! ## Numbers -/

/-- The digits of a base, which need not be there, as a number. -/
def digitsIn (base : Nat) (cs : List Char) : Option Nat :=
  cs.foldlM
    (fun n c ↦ do
      let d ← hexValue? c
      if d < base then some (base * n + d) else none)
    0

/-- A number in digits of a base. -/
def numeral? (base : Nat) (cs : List Char) : Option Nat :=
  if cs = [] then none else digitsIn base cs

/-- A natural number: an optional plus sign, and then digits of base sixteen, eight or two behind
their mark, or decimal digits without leading zeros. -/
def natural? (text : String) : Option Nat :=
  let unsigned :=
    match text.toList with
    | '+' :: rest => rest
    | cs => cs
  match unsigned with
  | '0' :: 'x' :: rest => numeral? 16 rest
  | '0' :: 'o' :: rest => numeral? 8 rest
  | '0' :: 'b' :: rest => numeral? 2 rest
  | '0' :: _ :: _ => none
  | cs => numeral? 10 cs

/-! ## Scalars -/

/-- The spellings of null, other than nothing at all. -/
def nullWords : List String :=
  ["null", "Null", "NULL", "~"]

/-- The truth value that a text spells. -/
def truth? (text : String) : Option Bool :=
  if ["true", "True", "TRUE"].contains text then some true
  else if ["false", "False", "FALSE"].contains text then some false
  else none

namespace Node

/-- The text of a scalar whatever it stands for. -/
def text? : Node → Option String
  | .scalar _ _ text => some text
  | _ => none

/-- The text of a scalar that may stand for a value of a kind. -/
def spelling? (kind : String) : Node → Option String
  | .scalar _ .plain text => some text
  | .scalar tag .literal text => if tag = some (coreTag kind) then some text else none
  | _ => none

/-- A natural number that is at most a limit. -/
def natural? (limit : Nat) (node : Node) : Option Nat := do
  let n ← Yaml.natural? (← node.spelling? "int")
  if n ≤ limit then some n else none

/-- A truth value. -/
def bool? (node : Node) : Option Bool := do
  truth? (← node.spelling? "bool")

/-- Whether a node is left out or spells null. -/
def isNull : Node → Bool
  | .scalar none .plain text => text = "" || nullWords.contains text
  | .scalar (some tag) .plain text => tag = coreTag "null" && nullWords.contains text
  | _ => false

/-- A node that may be null. One with the tag of null must be. -/
def given? (node : Node) : Option (Option Node) :=
  match node with
  | .scalar (some tag) .plain text =>
      if tag ≠ coreTag "null" then some (some node)
      else if nullWords.contains text then some none
      else none
  | _ => if node.isNull then some none else some (some node)

/-- Whether a node is left out and carries nothing that says what it is. -/
def isMissing : Node → Bool
  | .scalar _ .plain text => text = ""
  | _ => false

/-- The items of a sequence. One that is left out has none. -/
def list? : Node → Option (List Node)
  | .sequence _ items => some items
  | node => if node.isMissing then some [] else none

/-- The entries of a mapping by name. One that is left out has none. -/
def fields? : Node → Option (List (String × Node))
  | .mapping _ entries => entries.mapM fun (key, value) ↦ key.text?.map fun name ↦ (name, value)
  | node => if node.isMissing then some [] else none

/-- Whether a tag is defined by the document alone. -/
def isLocal (tag : Option String) : Bool :=
  tag.any fun t ↦ t.toList.head? = some '!'

/-- Whether a tag says that a scalar is no text. -/
def isTyped (tag : Option String) : Bool :=
  ["bool", "int", "float", "null"].any fun kind ↦ tag = some (coreTag kind)

/-- A choice: a text, or a mapping of one entry. -/
def choice? : Node → Option (String × Option Node)
  | .scalar tag style text =>
      if isLocal tag || isTyped tag then none
      else if tag.isNone && style = .plain && (text = "" || nullWords.contains text) then none
      else some (text, none)
  | .mapping tag [(key, value)] =>
      if isLocal tag then none else key.text?.map fun name ↦ (name, some value)
  | _ => none

end Node

end ReadThrough.Yaml
