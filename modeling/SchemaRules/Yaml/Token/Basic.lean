/-!
# Tokens of YAML

The pieces of a YAML text. Block collections, which the text writes by indentation alone,
have tokens of their own where they begin and end.
-/

namespace SchemaRules.Yaml

/-- How a scalar is written. -/
inductive Style where
  | plain
  | quoted
  | literal
  | folded
  deriving DecidableEq, Inhabited

/-- **A token.** -/
inductive Token where
  | version (major minor : Nat)
  /-- A handle of tags and what it stands for. -/
  | handle (name expansion : String)
  | documentStart
  | documentEnd
  | blockSequence
  | blockMapping
  | blockEnd
  | flowSequence
  | flowSequenceEnd
  | flowMapping
  | flowMappingEnd
  | blockEntry
  | flowEntry
  | key
  | value
  | aliasOf (name : String)
  | anchor (name : String)
  /-- A tag by its handle, empty for one that is written out, and the rest of it. -/
  | tag (handle suffix : String)
  | scalar (style : Style) (text : String)
  deriving DecidableEq

end SchemaRules.Yaml
