/-!
# Characters of YAML

Which characters may occur at all, which of them end a line or separate words, and texts with one
spelling of every line break.
-/

namespace ReadThrough.Yaml

/-- Whether a character may occur in a text. Of the control characters only tab and the line
breaks may. -/
def isAllowed (c : Char) : Bool :=
  let n := c.toNat
  n == 0x09 || n == 0x0a || n == 0x0d || (0x20 ≤ n && n ≤ 0x7e) || n == 0x85 ||
    (0xa0 ≤ n && n ≤ 0xd7ff) || (0xe000 ≤ n && n ≤ 0xfffd) || 0x10000 ≤ n

/-- Write every line break as a line feed, other than the line and the paragraph separator, which
stay what they are. -/
def unifyBreaks : List Char → List Char
  | [] => []
  | '\r' :: '\n' :: rest => '\n' :: unifyBreaks rest
  | c :: rest => (if c = '\r' ∨ c = '\u0085' then '\n' else c) :: unifyBreaks rest

/-- Whether a character ends a line, where line breaks are unified. -/
def isBreak (c : Char) : Bool :=
  c = '\n' || c = '\u2028' || c = '\u2029'

/-- Whether a character is a space or a tab. -/
def isBlank (c : Char) : Bool :=
  c = ' ' || c = '\t'

/-- Whether a line or the text ends here. -/
def atBreak : List Char → Bool
  | [] => true
  | c :: _ => isBreak c

/-- Whether a word ends here. -/
def atGap : List Char → Bool
  | [] => true
  | c :: _ => isBlank c || isBreak c

/-- Whether a character may stand in a name. -/
def isNameChar (c : Char) : Bool :=
  c.isAlphanum || c = '-' || c = '_'

/-- Whether the mark between documents, or the one after a document, stands here. It is one only
where a line begins. -/
def atMarker : List Char → Bool
  | a :: b :: c :: rest =>
      ((a = '-' && b = '-' && c = '-') || (a = '.' && b = '.' && c = '.')) && atGap rest
  | _ => false

/-- What is left of a line behind blanks and a comment. -/
def skipToBreak (cs : List Char) : List Char :=
  match cs.dropWhile isBlank with
  | '#' :: rest => rest.dropWhile fun c ↦ !isBreak c
  | rest => rest

/-- The value of a hexadecimal digit. -/
def hexValue? (c : Char) : Option Nat :=
  if '0' ≤ c ∧ c ≤ '9' then some (c.toNat - 0x30)
  else if 'a' ≤ c ∧ c ≤ 'f' then some (c.toNat - 0x57)
  else if 'A' ≤ c ∧ c ≤ 'F' then some (c.toNat - 0x37)
  else none

end ReadThrough.Yaml
