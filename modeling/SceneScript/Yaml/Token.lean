/-!
# Yaml — Token

The tokens of a YAML text.  Indentation has become explicit: a block collection stands between a
start token and `blockEnd`, and every mapping key has a `key` token before it.
-/

namespace SceneScript.Yaml

/-- A token of a YAML text. -/
inductive Token where
  | versionDirective (major minor : Nat)
  | tagDirective (handle : String)
  | documentStart
  | documentEnd
  | blockSequenceStart
  | blockMappingStart
  | blockEnd
  | flowSequenceStart
  | flowSequenceEnd
  | flowMappingStart
  | flowMappingEnd
  | blockEntry
  | flowEntry
  | key
  | value
  | alias (name : String)
  | anchor (name : String)
  /-- A tag; one that is written out in full has no handle. -/
  | tag (handle : Option String)
  | scalar (text : String)
  | streamEnd
  deriving DecidableEq, Repr

/-- A token and the line and column where it starts. -/
structure Placed where
  token  : Token
  line   : Nat
  column : Nat
  deriving DecidableEq, Repr

end SceneScript.Yaml
