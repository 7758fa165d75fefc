/-!
# Tokens of YAML

A token is a scalar, a mark that the text spells out, or the start or end of a block that only the
indentation shows.
-/

namespace ReadThrough.Yaml

/-- How a scalar is written. -/
inductive ScalarStyle where
  | plain
  /-- between quotes of either kind -/
  | quoted
  /-- as lines that stand for themselves -/
  | literal
  /-- as lines that are joined -/
  | folded
deriving DecidableEq, Repr

/-- A token. -/
inductive Token where
  /-- the version of the language -/
  | version (major minor : Nat)
  /-- what a handle of tags stands for -/
  | handle (name meaning : String)
  | documentStart
  | documentEnd
  | blockSequenceStart
  | blockMappingStart
  | blockEnd
  | flowSequenceStart
  | flowSequenceEnd
  | flowMappingStart
  | flowMappingEnd
  | blockEntry
  | flowEntry
  | key
  | value
  | alias (name : String)
  | anchor (name : String)
  | tag (handle suffix : String)
  | scalar (style : ScalarStyle) (text : String)
deriving DecidableEq, Repr

end ReadThrough.Yaml
