import Provenance.Yaml.Fault
import Provenance.Yaml.Scalar
import Provenance.Yaml.Tag

/-!
The tokens of a YAML text. Block structure, which the text expresses by indentation, is explicit in
them: a block collection opens with a token of its own and closes with a block end. The last token
is the end of the text or tells of the fault that keeps the rest from being read.
-/

namespace Provenance.Yaml

/-- How a scalar is written. -/
inductive ScalarStyle where
  | plain
  | quoted
  | literal
  | folded
  deriving DecidableEq, Repr

inductive TokenKind where
  | streamEnd
  | versionDirective
  | tagDirective (handle target : String)
  | documentStart
  | documentEnd
  | blockSequenceStart
  | blockMappingStart
  | blockEnd
  | flowSequenceStart
  | flowSequenceEnd
  | flowMappingStart
  | flowMappingEnd
  | blockEntry
  | flowEntry
  | key
  | value
  | alias (name : String)
  | anchor (name : String)
  | tag (tag : Tag)
  | scalar (style : ScalarStyle) (text : String)
  /-- The text can not be read any further. -/
  | broken (fault : Fault)
  deriving DecidableEq, Repr

structure Token where
  kind : TokenKind
  mark : Mark
  deriving Repr

end Provenance.Yaml
