import ReadThrough.Yaml.Character

/-!
# The texts of scalars

What a plain, a quoted or a block scalar stands for. Inside a plain or a quoted scalar one line
break is read as a space, and of several the first is left out; blanks around line breaks do not
count. Every function answers the text, read backwards where it is still being added to, and what
follows the scalar. Line breaks are unified.
-/

namespace ReadThrough.Yaml

/-! ## Gaps between words -/

/-- Blanks and line breaks between two words of a scalar. -/
structure Gap where
  /-- the blanks before any line break, backwards -/
  blanks : List Char
  /-- whether there was a line break -/
  broken : Bool
  /-- the first line break, unless it was escaped -/
  first : Option Char
  /-- the later line breaks, backwards -/
  later : List Char
  /-- how many characters were read since the last line break -/
  column : Nat

namespace Gap

/-- No gap. -/
def none : Gap :=
  ⟨[], false, Option.none, [], 0⟩

/-- A gap that begins with an escaped line break. -/
def escaped : Gap :=
  ⟨[], true, Option.none, [], 0⟩

/-- Whether there is a gap at all. -/
def isOpen (gap : Gap) : Bool :=
  gap.broken || !gap.blanks.isEmpty

/-- Add a blank. -/
def addBlank (gap : Gap) (c : Char) : Gap :=
  if gap.broken then { gap with column := gap.column + 1 }
  else { gap with blanks := c :: gap.blanks }

/-- Add a line break. -/
def addBreak (gap : Gap) (c : Char) : Gap :=
  if gap.broken then { gap with later := c :: gap.later, column := 0 }
  else ⟨[], true, some c, [], 0⟩

/-- What a gap stands for, backwards. -/
def fold (gap : Gap) : List Char :=
  if !gap.broken then gap.blanks
  else
    match gap.first, gap.later with
    | some '\n', [] => [' ']
    | some '\n', later => later
    | some c, later => later ++ [c]
    | Option.none, later => later

end Gap

/-! ## Plain scalars -/

/-- Whether a character separates the items of a flow collection or is one of its brackets. -/
def isFlowMark (c : Char) : Bool :=
  c = ',' || c = '[' || c = ']' || c = '{' || c = '}'

/-- Read the rest of a plain scalar. In a block it ends before a line that is indented less than
`indent`. The answer also tells whether a line break follows the scalar. -/
def plainRest (flow : Bool) (indent : Nat) (text : List Char) (gap : Gap) :
    List Char → Option ((List Char × Bool) × List Char)
  | [] => some ((text, gap.broken), [])
  | c :: rest =>
      if isBlank c then
        if c = '\t' && gap.broken && gap.column < indent then none
        else plainRest flow indent text (gap.addBlank c) rest
      else if isBreak c then plainRest flow indent text (gap.addBreak c) rest
      else if gap.isOpen && (c = '#' ||
          (gap.broken && ((!flow && gap.column < indent) ||
            (gap.column == 0 && atMarker (c :: rest))))) then
        some ((text, gap.broken), c :: rest)
      else if flow && c = ':' && rest.head?.any (fun d ↦ isFlowMark d || d = '?') then none
      else if (c = ':' && atGap rest) || (flow && isFlowMark c) then
        some ((text, gap.broken), c :: rest)
      else plainRest flow indent (c :: (gap.fold ++ text)) .none rest

/-- Read a plain scalar. -/
def plainScalar (flow : Bool) (indent : Nat) (cs : List Char) :
    Option ((List Char × Bool) × List Char) := do
  let ((text, broken), rest) ← plainRest flow indent [] .none cs
  some ((text.reverse, broken), rest)

/-! ## Quoted scalars -/

/-- The character that a one-letter escape stands for. -/
def escape? (c : Char) : Option Char :=
  [('0', '\x00'), ('a', '\x07'), ('b', '\x08'), ('t', '\t'), ('\t', '\t'), ('n', '\n'),
    ('v', '\x0b'), ('f', '\x0c'), ('r', '\r'), ('e', '\x1b'), (' ', ' '), ('"', '"'),
    ('/', '/'), ('\\', '\\'), ('N', '\u0085'), ('_', '\u00a0'), ('L', '\u2028'),
    ('P', '\u2029')].lookup c

/-- How many hexadecimal digits follow the letter of an escape. -/
def escapeDigits? (c : Char) : Option Nat :=
  [('x', 2), ('u', 4), ('U', 8)].lookup c

/-- The character with the code point that the digits give. -/
def ofHex? (digits : List Char) : Option Char := do
  let n ← digits.foldlM (fun n c ↦ (hexValue? c).map (16 * n + ·)) 0
  if h : n.isValidChar then some (Char.ofNatAux n h) else none

/-- Read the rest of a quoted scalar up to the closing quote. -/
def quotedRest (quote : Char) (text : List Char) (gap : Gap) :
    List Char → Option (List Char × List Char)
  | [] => none
  | c :: rest =>
      if isBlank c then quotedRest quote text (gap.addBlank c) rest
      else if isBreak c then
        if atMarker rest then none else quotedRest quote text (gap.addBreak c) rest
      else
        let joined := gap.fold ++ text
        if c = quote then
          match quote, rest with
          | '\'', '\'' :: later => quotedRest quote ('\'' :: joined) .none later
          | _, _ => some (joined, rest)
        else if quote = '"' && c = '\\' then
          match rest with
          | [] => none
          | d :: later =>
              if isBreak d then
                if atMarker later then none else quotedRest quote joined .escaped later
              else
                match escape? d, escapeDigits? d with
                | some e, _ => quotedRest quote (e :: joined) .none later
                | none, some 2 =>
                    match later with
                    | a :: b :: behind => do
                        quotedRest quote ((← ofHex? [a, b]) :: joined) .none behind
                    | _ => none
                | none, some 4 =>
                    match later with
                    | a :: b :: c :: d :: behind => do
                        quotedRest quote ((← ofHex? [a, b, c, d]) :: joined) .none behind
                    | _ => none
                | none, some _ =>
                    match later with
                    | a :: b :: c :: d :: e :: f :: g :: h :: behind => do
                        quotedRest quote ((← ofHex? [a, b, c, d, e, f, g, h]) :: joined) .none
                          behind
                    | _ => none
                | none, none => none
        else quotedRest quote (c :: joined) .none rest

/-- Read a quoted scalar behind its opening quote. -/
def quotedScalar (quote : Char) (cs : List Char) : Option (List Char × List Char) := do
  let (text, rest) ← quotedRest quote [] .none cs
  some (text.reverse, rest)

/-! ## Block scalars -/

/-- What becomes of the line breaks at the end of a block scalar. -/
inductive Chomp where
  /-- none stays -/
  | strip
  /-- the first stays -/
  | clip
  /-- all stay -/
  | keep
deriving DecidableEq, Repr

/-- The sign of a way to chomp. -/
def chomp? (c : Char) : Option Chomp :=
  if c = '+' then some .keep else if c = '-' then some .strip else none

/-- The digit of an indentation; zero is none. -/
def indentDigit? (c : Char) : Option Nat :=
  if '1' ≤ c ∧ c ≤ '9' then some (c.toNat - 0x30) else none

/-- Read the indicators behind the sign of a block scalar: how to chomp and how far the lines are
indented, in either order, each of which may be left out. -/
def blockIndicators (cs : List Char) : (Chomp × Option Nat) × List Char :=
  match cs with
  | [] => ((.clip, none), [])
  | c :: rest =>
      match chomp? c, indentDigit? c with
      | some chomp, _ =>
          match rest with
          | d :: later =>
              match indentDigit? d with
              | some n => ((chomp, some n), later)
              | none => ((chomp, none), rest)
          | [] => ((chomp, none), [])
      | none, some n =>
          match rest with
          | d :: later =>
              match chomp? d with
              | some chomp => ((chomp, some n), later)
              | none => ((.clip, some n), rest)
          | [] => ((.clip, some n), [])
      | none, none => ((.clip, none), cs)

/-- What stands between two lines of a block scalar. -/
structure Margin where
  /-- the line breaks of empty lines -/
  breaks : List Char
  /-- how far the next line is indented -/
  column : Nat
  /-- the widest indentation seen -/
  widest : Nat

/-- Read empty lines and the indentation of the line behind them, up to `indent` where that is
known. A tab may not stand in it. -/
def margin (indent : Option Nat) (m : Margin) : List Char → Option (Margin × List Char)
  | [] => some ({ m with widest := max m.widest m.column }, [])
  | c :: rest =>
      let inside := indent.all (m.column < ·)
      let seen := { m with widest := max m.widest m.column }
      if c = ' ' && inside then margin indent { m with column := m.column + 1 } rest
      else if c = '\t' && inside then none
      else if isBreak c then
        margin indent { seen with breaks := m.breaks ++ [c], column := 0 } rest
      else some (seen, c :: rest)

/-- A block scalar that is being read. -/
structure BlockText where
  text : List Char
  /-- the line break behind the last line, if any -/
  last : List Char
  /-- the line breaks of the empty lines behind it -/
  empty : List Char
  /-- whether the last line begins with a blank -/
  blank : Bool

/-- Add a line that begins with the given character. Where lines are joined, a single line break
between lines that do not begin with a blank is a space, and of several the first is left out. -/
def BlockText.addLine (b : BlockText) (literal : Bool) (line last : List Char) : BlockText :=
  let blank := line.head?.any isBlank
  let between :=
    if !literal && b.last == ['\n'] && !b.blank && !blank then
      if b.empty.isEmpty then [' '] else b.empty
    else b.last ++ b.empty
  { text := b.text ++ between ++ line, last, empty := [], blank }

/-- Read the lines of a block scalar, `limit` at most. -/
def blockLines (literal : Bool) (indent : Nat) :
    Nat → BlockText → Margin → List Char → Option (BlockText × List Char)
  | 0, b, m, cs => some ({ b with empty := m.breaks }, cs)
  | limit + 1, b, m, cs =>
      let b := { b with empty := m.breaks }
      if m.column ≠ indent ∨ cs = [] then some (b, cs)
      else do
        let line := cs.takeWhile fun c ↦ !isBreak c
        let rest := cs.dropWhile fun c ↦ !isBreak c
        let (next, rest) ← margin (some indent) ⟨[], 0, 0⟩ (rest.drop 1)
        blockLines literal indent limit
          (b.addLine literal line ((cs.dropWhile fun c ↦ !isBreak c).take 1)) next rest

/-- The text of a block scalar with its end chomped. -/
def BlockText.chomped (b : BlockText) : Chomp → List Char
  | .strip => b.text
  | .clip => b.text ++ b.last
  | .keep => b.text ++ b.last ++ b.empty

/-- Read a block scalar behind its sign. The lines are indented by more than the block around,
whose indentation is one less than `outer`. -/
def blockScalar (literal : Bool) (outer : Nat) (cs : List Char) :
    Option (List Char × List Char) := do
  let ((chomp, digit), rest) := blockIndicators cs
  let rest := skipToBreak rest
  if atBreak rest then
    let given := digit.map (outer - 1 + ·)
    let (first, rest) ← margin given ⟨[], 0, 0⟩ (rest.drop 1)
    let indent := given.getD (max (max first.widest outer) 1)
    let (b, rest) ← blockLines literal indent (rest.length + 1) ⟨[], [], [], false⟩ first rest
    some (b.chomped chomp, rest)
  else none

end ReadThrough.Yaml
