import ReadThrough.Yaml.Tokens

/-!
# Documents

A document is a tree of scalars, sequences and mappings. An alias stands for the node that carries
its name, which must be complete where the alias stands. Trees are built from tokens by one
function for every kind of collection; each takes the tokens that are left and answers what it
built with the tokens behind it, or nothing where the tokens do not fit.
-/

namespace ReadThrough.Yaml

/-- A node of a document. -/
inductive Node where
  | scalar (tag : Option String) (style : ScalarStyle) (text : String)
  | sequence (tag : Option String) (items : List Node)
  | mapping (tag : Option String) (entries : List (Node × Node))
deriving Inhabited

/-- What stands where a node is left out. -/
def Node.missing : Node :=
  .scalar none .plain ""

/-- A document that is being built. -/
structure Builder where
  rest : List Token
  /-- what the handles of tags stand for -/
  handles : List (String × String)
  /-- the named nodes, latest last; a node has no value before it is complete -/
  anchors : Array (String × Option Node)

namespace Builder

/-- Go past one token. -/
def skip (b : Builder) : Builder :=
  { b with rest := b.rest.drop 1 }

/-- The next token. -/
def next? (b : Builder) : Option Token :=
  b.rest.head?

/-- Whether the next token is one of the given ones. -/
def isAt (b : Builder) (tokens : List Token) : Bool :=
  b.next?.any (tokens.contains ·)

/-- The node that a name stands for. -/
def lookup? (b : Builder) (name : String) : Option Node := do
  (← b.anchors.toList.reverse.find? fun a ↦ a.1 = name).2

/-- Give a node a name before it is complete. -/
def announce (b : Builder) (anchor : Option String) : Builder :=
  match anchor with
  | none => b
  | some name => { b with anchors := b.anchors.push (name, none) }

/-- Complete the node that was given a name when as many as `before` were there. -/
def complete (b : Builder) (anchor : Option String) (before : Nat) (node : Node) : Builder :=
  match anchor with
  | none => b
  | some name => { b with anchors := b.anchors.setIfInBounds before (name, some node) }

/-- The tag that a handle and a suffix stand for. -/
def resolve? (b : Builder) (handle suffix : String) : Option String :=
  if handle = "" then some suffix
  else (b.handles.lookup handle).map (· ++ suffix)

/-- What stands before a node: its name and its tag, in either order. -/
structure Properties where
  anchor : Option String
  tag : Option (String × String)

/-- Read what stands before a node. -/
def properties (b : Builder) : Properties × Builder :=
  match b.rest with
  | .anchor name :: .tag handle suffix :: rest =>
      (⟨some name, some (handle, suffix)⟩, { b with rest })
  | .tag handle suffix :: .anchor name :: rest =>
      (⟨some name, some (handle, suffix)⟩, { b with rest })
  | .anchor name :: rest => (⟨some name, none⟩, { b with rest })
  | .tag handle suffix :: rest => (⟨none, some (handle, suffix)⟩, { b with rest })
  | _ => (⟨none, none⟩, b)

/-- The tag of a scalar. A single exclamation mark is no tag. -/
def scalarTag (tag : Option String) : Option String :=
  tag.filter (· ≠ "!")

/-- Where a node stands: which tokens may begin it. -/
inductive Site where
  | flow
  | block
  /-- a value of a block mapping, whose items may be as far left as the key -/
  | blockValue
deriving DecidableEq

mutual

/-- Build a node. -/
def node (limit : Nat) (site : Site) (b : Builder) : Option (Node × Builder) :=
  match limit with
  | 0 => none
  | limit + 1 =>
      match b.next? with
      | some (.alias name) => do some (← b.lookup? name, b.skip)
      | _ => do
          let (props, b) := b.properties
          let tag ← match props.tag with
            | none => some none
            | some (handle, suffix) => (b.resolve? handle suffix).map some
          let before := b.anchors.size
          let (node, b) ← content limit site tag props (b.announce props.anchor)
          some (node, b.complete props.anchor before node)

/-- Build what follows the name and the tag of a node. -/
def content (limit : Nat) (site : Site) (tag : Option String) (props : Properties) (b : Builder) :
    Option (Node × Builder) :=
  match limit with
  | 0 => none
  | limit + 1 =>
      match b.next?, site with
      | some (.scalar style text), _ => some (.scalar (scalarTag tag) style text, b.skip)
      | some .flowSequenceStart, _ => do
          let (items, b) ← flowItems limit true b.skip
          some (.sequence tag items, b)
      | some .flowMappingStart, _ => do
          let (entries, b) ← flowEntries limit true b.skip
          some (.mapping tag entries, b)
      | some .blockEntry, .blockValue => do
          let (items, b) ← blockItems limit false b
          some (.sequence tag items, b)
      | some .blockSequenceStart, .block | some .blockSequenceStart, .blockValue => do
          let (items, b) ← blockItems limit true b.skip
          some (.sequence tag items, b)
      | some .blockMappingStart, .block | some .blockMappingStart, .blockValue => do
          let (entries, b) ← blockEntries limit b.skip
          some (.mapping tag entries, b)
      | _, _ =>
          if props.anchor.isSome || props.tag.isSome then
            some (.scalar tag .plain "", b)
          else none

/-- Build the items of a block sequence. One that is not closed by its indentation ends where no
dash follows. -/
def blockItems (limit : Nat) (closed : Bool) (b : Builder) : Option (List Node × Builder) :=
  match limit with
  | 0 => none
  | limit + 1 =>
      match b.next? with
      | some .blockEntry => do
          let b := b.skip
          let ends : List Token :=
            if closed then [.blockEntry, .blockEnd] else [.blockEntry, .key, .value, .blockEnd]
          let (item, b) ← if b.isAt ends then some (.missing, b) else node limit .block b
          let (items, b) ← blockItems limit closed b
          some (item :: items, b)
      | token =>
          if closed then if token = some .blockEnd then some ([], b.skip) else none
          else some ([], b)

/-- Build the entries of a block mapping. -/
def blockEntries (limit : Nat) (b : Builder) : Option (List (Node × Node) × Builder) :=
  match limit with
  | 0 => none
  | limit + 1 =>
      match b.next? with
      | some .blockEnd => some ([], b.skip)
      | some .key => do
          let (key, b) ← blockPart limit b.skip
          let (value, b) ← if b.isAt [.value] then blockPart limit b.skip else some (.missing, b)
          let (entries, b) ← blockEntries limit b
          some ((key, value) :: entries, b)
      | _ => none

/-- Build a key or a value of a block mapping, which may be left out. -/
def blockPart (limit : Nat) (b : Builder) : Option (Node × Builder) :=
  match limit with
  | 0 => none
  | limit + 1 =>
      if b.isAt [.key, .value, .blockEnd] then some (.missing, b) else node limit .blockValue b

/-- Build the items of a flow sequence. An item with a colon is a mapping of one entry. -/
def flowItems (limit : Nat) (first : Bool) (b : Builder) : Option (List Node × Builder) :=
  match limit with
  | 0 => none
  | limit + 1 =>
      if b.isAt [.flowSequenceEnd] then some ([], b.skip)
      else do
        let b ← if first then some b else if b.isAt [.flowEntry] then some b.skip else none
        if b.isAt [.flowSequenceEnd] then some ([], b.skip)
        else
          let (item, b) ← if b.isAt [.key] then flowPair limit b.skip else node limit .flow b
          let (items, b) ← flowItems limit false b
          some (item :: items, b)

/-- Build a mapping of one entry inside a flow sequence. Where the key is left out, the token
behind it is passed over. -/
def flowPair (limit : Nat) (b : Builder) : Option (Node × Builder) :=
  match limit with
  | 0 => none
  | limit + 1 => do
      let (key, b) ←
        if b.isAt [.value, .flowEntry, .flowSequenceEnd] then some (.missing, b.skip)
        else node limit .flow b
      let (value, b) ←
        if b.isAt [.value] then
          if b.skip.isAt [.flowEntry, .flowSequenceEnd] then some (.missing, b.skip)
          else node limit .flow b.skip
        else some (.missing, b)
      some (.mapping none [(key, value)], b)

/-- Build the entries of a flow mapping. -/
def flowEntries (limit : Nat) (first : Bool) (b : Builder) :
    Option (List (Node × Node) × Builder) :=
  match limit with
  | 0 => none
  | limit + 1 =>
      if b.isAt [.flowMappingEnd] then some ([], b.skip)
      else do
        let b ← if first then some b else if b.isAt [.flowEntry] then some b.skip else none
        if b.isAt [.flowMappingEnd] then some ([], b.skip)
        else
          let (entry, b) ←
            if b.isAt [.key] then flowEntry limit b.skip
            else (node limit .flow b).map fun (key, b) ↦ ((key, Node.missing), b)
          let (entries, b) ← flowEntries limit false b
          some (entry :: entries, b)

/-- Build the key and the value of an entry of a flow mapping, each of which may be left out. -/
def flowEntry (limit : Nat) (b : Builder) : Option ((Node × Node) × Builder) :=
  match limit with
  | 0 => none
  | limit + 1 => do
      let (key, b) ←
        if b.isAt [.value, .flowEntry, .flowMappingEnd] then some (.missing, b)
        else node limit .flow b
      let (value, b) ←
        if b.isAt [.value] then
          if b.skip.isAt [.flowEntry, .flowMappingEnd] then some (.missing, b.skip)
          else node limit .flow b.skip
        else some (.missing, b)
      some ((key, value), b)

end

/-! ## Documents -/

/-- The handles that stand for something without a directive. -/
def standardHandles : List (String × String) :=
  [("!", "!"), ("!!", "tag:yaml.org,2002:")]

/-- Read the directives of a document. Each may be given once, and only versions 1.1 and 1.2 are
read. -/
def directives (versioned : Bool) (handles : List (String × String)) :
    List Token → Option (List (String × String) × List Token)
  | .version major minor :: rest =>
      if !versioned && major = 1 && (minor = 1 || minor = 2) then directives true handles rest
      else none
  | .handle name meaning :: rest =>
      if (handles.lookup name).isSome then none
      else directives versioned ((name, meaning) :: handles) rest
  | rest => some (handles, rest)

/-- Build the root of a document whose beginning is marked. It may be left out. -/
def markedRoot (limit : Nat) (b : Builder) : Option (Node × Builder) :=
  match b.next? with
  | none | some (.version ..) | some (.handle ..) | some .documentStart | some .documentEnd =>
      some (.missing, b)
  | some _ => node limit .block b

/-- The most nested calls that building a document from some tokens takes. -/
def maxDepth (tokens : List Token) : Nat :=
  4 * tokens.length + 4

/-- Build the only document of some tokens. A document may begin with directives and a mark, and
may be followed by marks of its end alone. Without any token there is no document. -/
def document? (tokens : List Token) : Option (Option Node) :=
  let limit := maxDepth tokens
  let finish (root : Option (Node × Builder)) : Option (Option Node) := do
    let (root, b) ← root
    if b.rest.all (· = .documentEnd) then some (some root) else none
  match tokens with
  | [] => some none
  | .version .. :: _ | .handle .. :: _ | .documentStart :: _ => do
      let (handles, rest) ← directives false [] tokens
      match rest with
      | .documentStart :: rest => finish (markedRoot limit ⟨rest, handles ++ standardHandles, #[]⟩)
      | _ => none
  | _ => finish (node limit .block ⟨tokens, standardHandles, #[]⟩)

end Builder

/-- The only document of a text: nothing if the text cannot be read, and no node if it is empty. -/
def document? (text : String) : Option (Option Node) := do
  Builder.document? (← tokens? text)

end ReadThrough.Yaml
