import ReadThrough.Yaml.Character
import ReadThrough.Yaml.Token

/-!
# Anchors, tags and directives

A node may carry a name that aliases refer to, and a tag, which is written in full between angle
brackets or as a handle with a suffix. Directives at the beginning of a document say the version
of the language and what handles stand for. Every function answers nothing for what is malformed.
-/

namespace ReadThrough.Yaml

/-! ## Names -/

/-- Whether a name of an anchor may end here. -/
def endsName : List Char → Bool
  | [] => true
  | c :: rest => atGap (c :: rest) || "?:,]\x7d%@".toList.contains c || c.toNat == 0x60

/-- Read the name of an anchor or an alias. -/
def anchorName (cs : List Char) : Option (String × List Char) :=
  let name := cs.takeWhile isNameChar
  let rest := cs.dropWhile isNameChar
  if name ≠ [] ∧ endsName rest then some (String.ofList name, rest) else none

/-! ## Tags -/

/-- Whether a character may stand in a tag. -/
def isTagChar (c : Char) : Bool :=
  isNameChar c || ";/?:@&=+$.%!~*'()".toList.contains c

/-- Whether a character may stand in a tag between angle brackets. -/
def isVerbatimChar (c : Char) : Bool :=
  isTagChar c || c = ',' || c = '[' || c = ']'

/-- Read a handle: an exclamation mark, a word, and another exclamation mark if there is one. -/
def tagHandle (cs : List Char) : Option (List Char × List Char) :=
  match cs with
  | '!' :: rest =>
      let word := rest.takeWhile isNameChar
      match rest.dropWhile isNameChar with
      | '!' :: later => some ('!' :: word ++ ['!'], later)
      | later => some ('!' :: word, later)
  | _ => none

/-- The bytes of a tag whose percent signs stand for bytes. -/
def unescapeTag : List Char → Option (List UInt8)
  | [] => some []
  | '%' :: a :: b :: rest => do
      let byte := 16 * (← hexValue? a) + (← hexValue? b)
      some (UInt8.ofNat byte :: (← unescapeTag rest))
  | '%' :: _ => none
  | c :: rest => do some (c.toString.toUTF8.toList ++ (← unescapeTag rest))

/-- Read characters of a tag. -/
def tagText (allowed : Char → Bool) (cs : List Char) : Option (String × List Char) := do
  let bytes ← unescapeTag (cs.takeWhile allowed)
  some (← String.fromUTF8? ⟨bytes.toArray⟩, cs.dropWhile allowed)

/-- Whether a tag may end here. -/
def endsTag (flow : Bool) (cs : List Char) : Bool :=
  atGap cs || (flow && cs.head? = some ',')

/-- Read a tag as a handle and a suffix, behind its exclamation mark. A tag in full has no handle,
and neither has a single exclamation mark. -/
def tagName (flow : Bool) (cs : List Char) : Option ((String × String) × List Char) := do
  let (tag, rest) ←
    match cs with
    | '<' :: later => do
        match ← tagText isVerbatimChar later with
        | (text, '>' :: rest) => if text = "" then none else some (("", text), rest)
        | _ => none
    | _ => do
        let (handle, later) ← tagHandle ('!' :: cs)
        let (text, rest) ← tagText isTagChar later
        if 1 < handle.length ∧ handle.getLast? = some '!' then
          if text = "" then none else some ((String.ofList handle, text), rest)
        else
          let suffix := String.ofList (handle.drop 1) ++ text
          some (if suffix = "" then ("", "!") else ("!", suffix), rest)
  if endsTag flow rest then some (tag, rest) else none

/-! ## Directives -/

/-- Read a number of at most nine digits. -/
def versionNumber (cs : List Char) : Option (Nat × List Char) :=
  let digits := cs.takeWhile Char.isDigit
  if 1 ≤ digits.length ∧ digits.length ≤ 9 then
    some ((String.ofList digits).toNat?.getD 0, cs.dropWhile Char.isDigit)
  else none

/-- Read the version of the language. -/
def versionDirective (cs : List Char) : Option (Token × List Char) := do
  let (major, rest) ← versionNumber (cs.dropWhile isBlank)
  match rest with
  | '.' :: later =>
      let (minor, rest) ← versionNumber later
      some (.version major minor, rest)
  | _ => none

/-- Read what a handle stands for. -/
def handleDirective (cs : List Char) : Option (Token × List Char) := do
  let (handle, rest) ← tagHandle (cs.dropWhile isBlank)
  if handle.length = 1 ∨ handle.getLast? = some '!' then
    if rest.head?.any isBlank then
      let (meaning, rest) ← tagText isVerbatimChar (rest.dropWhile isBlank)
      if meaning ≠ "" ∧ atGap rest then
        some (.handle (String.ofList handle) meaning, rest)
      else none
    else none
  else none

/-- Read a directive behind its percent sign, up to the end of its line. -/
def directive (cs : List Char) : Option (Token × List Char) := do
  let name := String.ofList (cs.takeWhile isNameChar)
  let rest := cs.dropWhile isNameChar
  if atGap rest then
    let (token, rest) ←
      if name = "YAML" then versionDirective rest
      else if name = "TAG" then handleDirective rest
      else none
    let rest := skipToBreak rest
    if atBreak rest then some (token, rest.drop 1) else none
  else none

end ReadThrough.Yaml
