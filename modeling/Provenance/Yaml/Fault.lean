import Provenance.Source

/-!
What can be wrong with a YAML text.
-/

namespace Provenance.Yaml

inductive Cause where
  | adjoiningBrackets
  | commentInScalar
  | unexpectedCharacter (c : Char)
  | badIndentation
  | tabIndentation
  | badDirective
  | badTag
  | undeclaredTagHandle (handle : String)
  | emptyAnchorName
  | unknownAnchor (name : String)
  | contentAfterDocument
  | expectedDocumentStart
  | severalDocuments
  | directiveInDocument
  | tooDeep
  | bracketsWithoutDocument
  | tooManyAliases
  | tooManyCopies
  | foldNotIndented
  | keyWithoutColon
  | commentNotSeparated
  | missingSpace
  | entryNotAllowed
  | keyNotAllowed
  | valueNotAllowed
  | colonBeforeBracket
  | keyOnEarlierLine
  | unclosedQuote
  | documentMarkInQuote
  | contentAfterQuote
  | badEscape
  | badBlockHeader
  | emptyScalar
  | dashBeforeBracket
  | expectedContent
  | expectedKey
  | expectedDash
  | expectedComma
  | keyNotScalar
  | duplicateKey (key : String)
  | badMerge
  | badTaggedValue
  | unfinished
  deriving DecidableEq, Repr

namespace Cause

def message : Cause → String
  | adjoiningBrackets => "closing brackets must not be separated by a blank"
  | commentInScalar => "a comment must not interrupt a plain scalar"
  | unexpectedCharacter c => s!"unexpected character {c}"
  | badIndentation => "invalid indentation"
  | tabIndentation => "tabs must not be used as indentation"
  | badDirective => "malformed directive"
  | badTag => "malformed tag"
  | undeclaredTagHandle h => s!"the tag handle {h} was not declared"
  | emptyAnchorName => "an anchor or alias needs a name"
  | unknownAnchor n => s!"unknown anchor {n}"
  | contentAfterDocument => "invalid content after document end marker"
  | expectedDocumentStart => "did not find expected document start"
  | severalDocuments => "only one document is allowed"
  | directiveInDocument => "a directive must come before the document"
  | tooDeep => "too many collections are open"
  | bracketsWithoutDocument => "closing brackets without a document"
  | tooManyAliases => "too many aliases for the number of anchors"
  | tooManyCopies => "aliases stand for too many nodes"
  | foldNotIndented => "the lines of a folded scalar must be indented"
  | keyWithoutColon => "a simple key must be followed by a colon"
  | commentNotSeparated => "comments must be separated from other tokens by whitespace"
  | missingSpace => "expected whitespace"
  | entryNotAllowed => "block sequence entries are not allowed in this context"
  | keyNotAllowed => "mapping keys are not allowed in this context"
  | valueNotAllowed => "mapping values are not allowed in this context"
  | colonBeforeBracket => "a colon must not touch an opening bracket"
  | keyOnEarlierLine => "the colon must be on the line of its key"
  | unclosedQuote => "unexpected end of stream in a quoted scalar"
  | documentMarkInQuote => "unexpected document indicator in a quoted scalar"
  | contentAfterQuote => "invalid trailing content after a quoted scalar"
  | badEscape => "unknown escape sequence"
  | badBlockHeader => "malformed block scalar header"
  | emptyScalar => "unexpected end of plain scalar"
  | dashBeforeBracket => "a plain scalar must not be a dash before a bracket"
  | expectedContent => "did not find expected node content"
  | expectedKey => "did not find expected key"
  | expectedDash => "did not find expected '-' indicator"
  | expectedComma => "did not find expected comma or closing bracket"
  | keyNotScalar => "mapping keys must be scalars"
  | duplicateKey k => s!"duplicate mapping key {k}"
  | badMerge => "a merge value must be a mapping or a sequence of mappings"
  | badTaggedValue => "the value does not fit its tag"
  | unfinished => "unexpected end of tokens"

end Cause

/-- A fault, and where it shows. -/
structure Fault where
  cause : Cause
  location : Option Source.Location := none
  deriving DecidableEq, Repr

end Provenance.Yaml
