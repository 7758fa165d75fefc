import ReadThrough.Yaml.Property
import ReadThrough.Yaml.Scalar

/-!
# From text to tokens

In a block, indentation opens and closes collections: a scanner keeps the columns of the open ones.
What turns out to be a key is only known at the colon behind it, so the scanner also keeps, for
every level of flow collections, the place where a key may have begun, and puts the marks of a key
in there when the colon comes. A key must stand on one line and must not be long.
-/

namespace ReadThrough.Yaml

/-! ## Places in a text -/

/-- What is left of a text, and how many characters of its line and of the whole text came
before. -/
structure Place where
  rest : List Char
  line : Nat
  column : Nat
  index : Nat

namespace Place

/-- Go past some characters. -/
def pass (p : Place) : (count : Nat) → Place
  | 0 => p
  | count + 1 =>
      match p.rest with
      | [] => p
      | c :: rest =>
          let next : Place :=
            if isBreak c then ⟨rest, p.line + 1, 0, p.index + 1⟩
            else ⟨rest, p.line, p.column + 1, p.index + 1⟩
          next.pass count

/-- Go to where the rest is the given one. -/
def goTo (p : Place) (rest : List Char) : Place :=
  p.pass (p.rest.length - rest.length)

end Place

/-! ## Scanners -/

/-- Where a key may have begun. -/
structure Candidate where
  /-- the number of tokens before it -/
  tokens : Nat
  line : Nat
  column : Nat
  index : Nat
  /-- whether nothing but a key may stand there -/
  required : Bool

/-- A scanner at work. -/
structure Scanner where
  place : Place
  /-- the columns of the open block collections, innermost first -/
  indents : List Nat
  /-- whether a key may begin here -/
  keyAllowed : Bool
  /-- where a key may have begun, innermost flow collection first, the block last -/
  candidates : List (Option Candidate)
  tokens : Array Token

namespace Scanner

/-- A scanner at the beginning of a text. -/
def start (text : List Char) : Scanner :=
  ⟨⟨text, 0, 0, 0⟩, [], true, [none], #[]⟩

/-- Whether the scanner is inside a flow collection. -/
def inFlow (s : Scanner) : Bool :=
  1 < s.candidates.length

/-- The least column of what belongs to the innermost block collection and is no key of it. -/
def inner (s : Scanner) : Nat :=
  match s.indents with
  | [] => 0
  | column :: _ => column + 1

/-- Add a token. -/
def push (s : Scanner) (token : Token) : Scanner :=
  { s with tokens := s.tokens.push token }

/-- Add a token and go on behind it. -/
def emit (s : Scanner) (token : Token) (rest : List Char) : Scanner :=
  { s with tokens := s.tokens.push token, place := s.place.goTo rest }

/-- Put a token in before others. -/
def insert (s : Scanner) (before : Nat) (token : Token) : Scanner :=
  { s with tokens := s.tokens.extract 0 before ++ #[token] ++ s.tokens.extract before }

/-- Say whether a key may begin next. -/
def allowKey (s : Scanner) (allowed : Bool) : Scanner :=
  { s with keyAllowed := allowed }

/-! ## Indentation -/

/-- Close the block collections that are indented by more than a column; all of them, if none is
given. -/
def closeBlocks (s : Scanner) (column : Option Nat) : Scanner :=
  if s.inFlow then s
  else
    let open_ := s.indents.dropWhile fun indent ↦ column.all (· < indent)
    let closed := s.indents.length - open_.length
    { s with indents := open_, tokens := s.tokens ++ Array.replicate closed Token.blockEnd }

/-- Open a block collection at a column unless one is open there. Its mark goes before the given
number of tokens. -/
def openBlock (s : Scanner) (column before : Nat) (mark : Token) : Scanner :=
  if s.inFlow || s.indents.head?.any (column ≤ ·) then s
  else { s with indents := column :: s.indents }.insert before mark

/-! ## Keys -/

/-- Forget that a key may have begun on this level, which is not allowed where one is required. -/
def dropCandidate? (s : Scanner) : Option Scanner :=
  match s.candidates with
  | some candidate :: others =>
      if candidate.required then none else some { s with candidates := none :: others }
  | _ => some s

/-- Note that a key may begin here. -/
def noteCandidate? (s : Scanner) : Option Scanner :=
  if s.keyAllowed then do
    let s ← s.dropCandidate?
    let candidate : Candidate :=
      { tokens := s.tokens.size, line := s.place.line, column := s.place.column
        index := s.place.index
        required := !s.inFlow && s.indents.head? = some s.place.column }
    some { s with candidates := some candidate :: s.candidates.drop 1 }
  else some s

/-- The greatest distance between the beginning of a key and its colon. -/
def maxKeyLength : Nat := 1024

/-- Whether what began at a candidate cannot be a key any more. -/
def isStale (s : Scanner) (candidate : Candidate) : Bool :=
  candidate.line < s.place.line || candidate.index + maxKeyLength < s.place.index

/-- Forget the candidates that cannot be keys any more, which is not allowed where a key is
required. -/
def dropStale? (s : Scanner) : Option Scanner :=
  let stale (c : Option Candidate) : Bool := c.any s.isStale
  if s.candidates.any fun c ↦ stale c && c.any (·.required) then none
  else some { s with candidates := s.candidates.map fun c ↦ if stale c then none else c }

/-! ## Between tokens -/

/-- Go past blanks, comments and line breaks. A tab counts as a blank only where no key may begin,
or inside a flow collection. A byte order mark at the beginning of a line is passed over. -/
def skipGap : Nat → Scanner → Scanner
  | 0, s => s
  | limit + 1, s =>
      let rest :=
        match s.place.rest with
        | c :: rest => if s.place.column = 0 ∧ c = '\ufeff' then rest else c :: rest
        | [] => []
      let tabs := s.inFlow || !s.keyAllowed
      let rest := rest.dropWhile fun c ↦ c = ' ' || (tabs && c = '\t')
      let rest :=
        match rest with
        | '#' :: _ => rest.dropWhile fun c ↦ !isBreak c
        | _ => rest
      match rest with
      | c :: later =>
          if isBreak c then
            skipGap limit
              { s with place := s.place.goTo later, keyAllowed := s.keyAllowed || !s.inFlow }
          else { s with place := s.place.goTo rest }
      | [] => { s with place := s.place.goTo [] }

/-! ## Tokens -/

/-- A mark of three characters between documents, or a directive, closes everything. -/
def betweenDocuments? (s : Scanner) (token : Token) (rest : List Char) : Option Scanner := do
  let s ← (s.closeBlocks none).dropCandidate?
  some ((s.allowKey false).emit token rest)

/-- The beginning of a flow collection. -/
def openFlow? (s : Scanner) (token : Token) (rest : List Char) : Option Scanner := do
  let s ← s.noteCandidate?
  some ({ s with candidates := none :: s.candidates, keyAllowed := true }.emit token rest)

/-- The end of a flow collection. -/
def closeFlow? (s : Scanner) (token : Token) (rest : List Char) : Option Scanner := do
  let s ← s.dropCandidate?
  let outer := if s.inFlow then s.candidates.drop 1 else s.candidates
  some ({ s with candidates := outer, keyAllowed := false }.emit token rest)

/-- A comma between the items of a flow collection. -/
def flowEntry? (s : Scanner) (rest : List Char) : Option Scanner := do
  let s ← s.dropCandidate?
  some ((s.allowKey true).emit .flowEntry rest)

/-- A mark that begins an item of a block collection, which may stand only where a key may. -/
def blockMark? (s : Scanner) (collection : Token) : Option Scanner :=
  if s.inFlow then some s
  else if s.keyAllowed then some (s.openBlock s.place.column s.tokens.size collection)
  else none

/-- A dash before an item of a sequence. -/
def blockEntry? (s : Scanner) (rest : List Char) : Option Scanner := do
  let s ← (← s.blockMark? .blockSequenceStart).dropCandidate?
  some ((s.allowKey true).emit .blockEntry rest)

/-- A question mark before a key. -/
def explicitKey? (s : Scanner) (rest : List Char) : Option Scanner := do
  let s ← (← s.blockMark? .blockMappingStart).dropCandidate?
  some ((s.allowKey !s.inFlow).emit .key rest)

/-- A colon before a value. If a key may have begun on this level, that is what it was. -/
def value? (s : Scanner) (rest : List Char) : Option Scanner :=
  match s.candidates with
  | some key :: others =>
      let marked :=
        ({ s with candidates := none :: others }.insert key.tokens .key).openBlock
          key.column key.tokens .blockMappingStart
      some ((marked.allowKey false).emit .value rest)
  | _ => do
      let s ← s.blockMark? .blockMappingStart
      some ((s.allowKey !s.inFlow).emit .value rest)

/-- A token that may be the beginning of a key and is none of the above. -/
def content? (s : Scanner) (read : Option (Token × List Char)) : Option Scanner := do
  let s ← s.noteCandidate?
  let (token, rest) ← read
  some ((s.allowKey false).emit token rest)

/-- A plain scalar. A key may begin on the line behind it. -/
def plain? (s : Scanner) : Option Scanner := do
  let s ← s.noteCandidate?
  let ((text, broken), rest) ← plainScalar s.inFlow s.inner s.place.rest
  some ((s.allowKey broken).emit (.scalar .plain (String.ofList text)) rest)

/-- A block scalar behind its sign. -/
def block? (s : Scanner) (style : ScalarStyle) (rest : List Char) : Option Scanner := do
  let s ← s.dropCandidate?
  let (text, rest) ← blockScalar (style = .literal) s.inner rest
  some ((s.allowKey true).emit (.scalar style (String.ofList text)) rest)

/-- A quoted scalar behind its opening quote. -/
def quoted? (s : Scanner) (quote : Char) (rest : List Char) : Option Scanner :=
  s.content? do
    let (text, rest) ← quotedScalar quote rest
    some (.scalar .quoted (String.ofList text), rest)

/-- Whether a plain scalar may begin with a character that is followed by the given ones. -/
def startsPlain (s : Scanner) (c : Char) (rest : List Char) : Bool :=
  (!isBlank c && !isBreak c && !"-?:,[]\x7b\x7d#&*!|>'\"%@".toList.contains c && c.toNat ≠ 0x60) ||
    (c = '-' && !rest.head?.any isBlank) ||
    (!s.inFlow && (c = '?' || c = ':') && !atGap rest)

/-- Take one more token, or more where indentation ends blocks, at a place where no gap is left.
The first character and what follows it are given. -/
def take? (s : Scanner) (c : Char) (rest : List Char) : Option Scanner :=
  let lineStart := s.place.column == 0
  if lineStart && c = '%' then do
    let s ← (s.closeBlocks none).dropCandidate?
    let (token, rest) ← directive rest
    some ((s.allowKey false).emit token rest)
  else if lineStart && atMarker (c :: rest) then
    s.betweenDocuments? (if c = '-' then .documentStart else .documentEnd) (rest.drop 2)
  else if c = '[' then s.openFlow? .flowSequenceStart rest
  else if c = '{' then s.openFlow? .flowMappingStart rest
  else if c = ']' then s.closeFlow? .flowSequenceEnd rest
  else if c = '}' then s.closeFlow? .flowMappingEnd rest
  else if c = ',' then s.flowEntry? rest
  else if c = '-' && atGap rest then s.blockEntry? rest
  else if c = '?' && (s.inFlow || atGap rest) then s.explicitKey? rest
  else if c = ':' && (s.inFlow || atGap rest) then s.value? rest
  else if c = '*' then s.content? ((anchorName rest).map fun (n, rest) ↦ (.alias n, rest))
  else if c = '&' then s.content? ((anchorName rest).map fun (n, rest) ↦ (.anchor n, rest))
  else if c = '!' then
    s.content? ((tagName s.inFlow rest).map fun ((handle, suffix), rest) ↦
      (.tag handle suffix, rest))
  else if c = '|' && !s.inFlow then s.block? .literal rest
  else if c = '>' && !s.inFlow then s.block? .folded rest
  else if c = '\'' || c = '"' then s.quoted? c rest
  else if s.startsPlain c rest then s.plain?
  else none

/-- Take all tokens, at most `limit` times. Every time at least one character is used up. -/
def run? : Nat → Scanner → Option (Array Token)
  | 0, _ => none
  | limit + 1, s => do
      let s ← (skipGap (s.place.rest.length + 1) s).dropStale?
      let s := s.closeBlocks (some s.place.column)
      match s.place.rest with
      | [] => do
          let s ← (s.closeBlocks none).dropCandidate?
          some s.tokens
      | c :: rest => run? limit (← s.take? c rest)

end Scanner

/-- The tokens of a text, if it can be taken apart. -/
def tokens? (text : String) : Option (List Token) :=
  let cs := text.toList
  if cs.all isAllowed then
    (Scanner.run? (cs.length + 1) (.start (unifyBreaks cs))).map Array.toList
  else none

end ReadThrough.Yaml
