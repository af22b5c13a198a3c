import Provenance.Yaml.Token

/-!
Reading the tokens of a YAML text. A scalar or collection may turn out to be a mapping key only when
the colon after it is met; until that is settled it waits in a queue as a possible key, so that the
tokens that open the mapping can be put in front of it.
-/

namespace Provenance.Yaml

/-- A token that may turn out to be a key. -/
structure PossibleKey where
  mark : Mark := {}
  /-- Whether it still may. -/
  possible : Bool := false
  /-- Whether nothing but a key can stand in its place. -/
  required : Bool := false
  /-- The number of the token among all tokens. -/
  number : Nat := 0

/-- An enclosing indentation. -/
structure Indent where
  column : Int
  /-- Whether a block collection started at the inner column. -/
  isBlock : Bool

/-- A text read in part. -/
structure Scan where
  cursor : Cursor
  /-- Tokens read and not given out yet. -/
  queue : List Token := []
  /-- The number of tokens given out. -/
  given : Nat := 0
  /-- The column that the innermost block collection is indented by, or -1. -/
  indent : Int := -1
  /-- The enclosing indentations, innermost first. -/
  indents : List Indent := []
  /-- The number of open brackets. -/
  depth : Nat := 0
  /-- The possible key of each level of brackets, innermost first. -/
  keys : List PossibleKey := [{}]
  /-- Whether a key without an indicator may start here. -/
  keyAllowed : Bool := true
  /-- The offset at which a colon may touch the value after it. -/
  adjacentColon : Option Nat := none
  /-- Whether a mapping was opened by a bracket or an indicator, so that a colon opens none. -/
  mappingOpened : Bool := false
  /-- For each open sequence bracket, whether a mapping without brackets is open in it. -/
  bareMappings : List Bool := []

namespace Scan

def mark (s : Scan) : Mark := s.cursor.mark

def rest (s : Scan) : List Char := s.cursor.rest

/-- Whether the place is between brackets. -/
def inFlow (s : Scan) : Bool := 0 < s.depth

def push (s : Scan) (kind : TokenKind) (m : Mark) : Scan :=
  { s with queue := s.queue ++ [⟨kind, m⟩] }

/-- Puts a token in front of the token of a number. -/
def insert (s : Scan) (number : Nat) (kind : TokenKind) (m : Mark) : Scan :=
  { s with queue := s.queue.insertIdx (number - s.given) ⟨kind, m⟩ }

/-- Goes on from a place reached. -/
def moveTo (s : Scan) (c : Cursor) : Scan := { s with cursor := c }

/-- Drops the innermost indentation if no block collection started there. -/
def dropBareIndent (s : Scan) : Scan :=
  match s.indents with
  | i :: is => if i.isBlock then s else { s with indent := i.column, indents := is }
  | [] => s

/-- Closes the block collections that are indented by more than a column. -/
def unroll (s : Scan) (column : Int) : Scan :=
  if s.inFlow then s else go s s.indents
where
  go (s : Scan) : List Indent → Scan
    | i :: is =>
      if column < s.indent then
        let s := { s with indent := i.column, indents := is }
        go (if i.isBlock then s.push .blockEnd s.mark else s) is
      else s
    | [] => s

/-- Drops the innermost indentations where no block collection started. -/
def dropBareIndents (s : Scan) : Scan := go s s.indents
where
  go (s : Scan) : List Indent → Scan
    | i :: is => if i.isBlock then s else go { s with indent := i.column, indents := is } is
    | [] => s

/-- Opens a block collection at a column, unless one is open there. Its token goes in front of the
token of a number, if one is given. -/
def roll (s : Scan) (column : Nat) (number : Option Nat) (kind : TokenKind) (m : Mark) : Scan :=
  if s.inFlow then s
  else
    let s := if s.indent ≤ column then s.dropBareIndent else s
    if s.indent < column then
      let s := { s with indents := ⟨s.indent, true⟩ :: s.indents, indent := column }
      match number with
      | some n => s.insert n kind m
      | none => s.push kind m
    else s

/-- Requires continuation lines to be indented by one column more. -/
def rollOne (s : Scan) : Scan :=
  if !s.inFlow && s.indents.head?.any Indent.isBlock then
    { s with indents := ⟨s.indent, false⟩ :: s.indents, indent := s.indent + 1 }
  else s

/-- Notes that the next token may be a key. -/
def saveKey (s : Scan) : Scan :=
  if s.keyAllowed then
    let required := !s.inFlow && s.indent = s.mark.column && s.indents.head?.any Indent.isBlock
    { s with keys := ⟨s.mark, true, required, s.given + s.queue.length⟩ :: s.keys.drop 1 }
  else s

/-- Settles that the innermost possible key is none. -/
def removeKey (s : Scan) : Except Fault Scan :=
  match s.keys with
  | k :: ks =>
    if k.possible && k.required then s.mark.fault .keyWithoutColon
    else .ok { s with keys := { k with possible := false } :: ks }
  | [] => .ok s

/-- Settles that possible keys on earlier lines, or far back, are none. -/
def staleKeys (s : Scan) : Except Fault Scan := do
  let m := s.mark
  let isStale (k : PossibleKey) := k.possible && !s.inFlow &&
    (k.mark.line < m.line || k.mark.offset + 1024 < m.offset)
  if s.keys.any fun k => isStale k && k.required then m.fault .keyWithoutColon
  else return { s with keys := s.keys.map fun k => if isStale k then { k with possible := false } else k }

/-- Goes past blanks, comments and line breaks to the next token. -/
def skipToToken (s : Scan) : Except Fault Scan := go s.keyAllowed false s.rest s.mark
where
  go (keyAllowed comment : Bool) : List Char → Mark → Except Fault Scan
    | [], m => .ok { s with cursor := ⟨[], m⟩, keyAllowed }
    | '\r' :: '\n' :: r, m => go (keyAllowed || !s.inFlow) false r (m.newline 2)
    | c :: r, m =>
      if isBreak c then go (keyAllowed || !s.inFlow) false r m.newline
      else if comment then go keyAllowed true r m.chars
      else if c = '#' then go keyAllowed true r m.chars
      else if c = '\t' && !s.indents.isEmpty && m.leading && m.column < s.indent &&
          !Cursor.isLineOver (c :: r) then m.fault .tabIndentation
      else if isBlank c then go keyAllowed false r m.blank
      else .ok { s with cursor := ⟨c :: r, m⟩, keyAllowed }

/-- Goes past spaces, comments and line breaks after a key indicator. -/
def skipSpace (s : Scan) : Except Fault Scan := go s.keyAllowed false true s.rest s.mark
where
  go (keyAllowed comment missing : Bool) : List Char → Mark → Except Fault Scan
    | [], m => finish keyAllowed missing ⟨[], m⟩
    | '\r' :: '\n' :: r, m => go (keyAllowed || !s.inFlow) false false r (m.newline 2)
    | c :: r, m =>
      if isBreak c then go (keyAllowed || !s.inFlow) false false r m.newline
      else if comment then go keyAllowed true missing r m.chars
      else if c = ' ' then go keyAllowed false false r m.blank
      else if c = '#' then go keyAllowed true missing r m.chars
      else finish keyAllowed missing ⟨c :: r, m⟩
  finish (keyAllowed missing : Bool) (c : Cursor) : Except Fault Scan :=
    if missing then c.mark.fault .missingSpace else .ok { s with cursor := c, keyAllowed }

/-- Goes past an indicator of `n` characters, and the blanks and comment after it. -/
def skipIndicator (s : Scan) (n : Nat := 1) : Except Fault Scan := do
  return s.moveTo (← (s.cursor.skip n).skipToLineEnd).2

/-- Closes the mapping without brackets in the innermost sequence bracket, if one is open. -/
def endBareMapping (s : Scan) : Scan :=
  match s.bareMappings with
  | true :: bs =>
    ({ s with bareMappings := false :: bs, mappingOpened := false }).push .flowMappingEnd s.mark
  | _ => s

def streamEnd (s : Scan) : Except Fault Scan := do
  let m := if s.mark.column = 0 then s.mark else s.mark.newline 0
  let s := s.moveTo ⟨[], m⟩
  if s.keys.any fun k => k.possible && k.required then m.fault .keyWithoutColon
  let keys := s.keys.map fun k => { k with possible := false }
  let s := { s with keys, keyAllowed := false }.unroll (-1)
  return s.push .streamEnd m

/-- A mark that starts or ends a document, and closes all block collections. -/
def documentMark (s : Scan) (kind : TokenKind) : Except Fault Scan := do
  let m := s.mark
  let s ← (s.unroll (-1)).removeKey
  return ({ s with keyAllowed := false, cursor := s.cursor.skip 3 }).push kind m

/-- A part of a tag, with its escapes replaced. -/
def uri (m : Mark) (run : List Char) : Except Fault String :=
  match Tag.unescape 0 0 run with
  | some cs => .ok (String.ofList cs)
  | none => m.fault .badTag

def directive (s : Scan) : Except Fault Scan := do
  let s ← (s.unroll (-1)).removeKey
  let m := s.mark
  let (name, c) := (s.cursor.skip).takeRun isWordChar
  if name = [] || !endsWord c.rest then m.fault .badDirective
  let (kind, c) ← match String.ofList name with
    | "YAML" => version m c
    | "TAG" => tag m c
    | _ => pure (.tagDirective "" "", (c.takeRun (!isBreak ·)).2)
  let (_, c) ← c.skipToLineEnd
  if !endsLine c.rest then m.fault .badDirective
  return ({ s with keyAllowed := false, cursor := c.skipBreak }).push kind m
where
  number (m : Mark) (c : Cursor) : Except Fault Cursor := do
    let (ds, c) := c.takeRun Char.isDigit
    if ds = [] || 9 < ds.length then m.fault .badDirective
    return c
  version (m : Mark) (c : Cursor) : Except Fault (TokenKind × Cursor) := do
    let c ← number m (c.takeRun isBlank).2
    if c.rest.head? ≠ some '.' then m.fault .badDirective
    return (.versionDirective, ← number m c.skip)
  tag (m : Mark) (c : Cursor) : Except Fault (TokenKind × Cursor) := do
    let c := (c.takeRun isBlank).2
    if c.rest.head? ≠ some '!' then m.fault .badDirective
    let (word, c) := c.skip.takeRun isWordChar
    let closed := c.rest.head? = some '!'
    if !closed && word ≠ [] then m.fault .badDirective
    let c := if closed then c.skip else c
    let handle := '!' :: word ++ if closed then ['!'] else []
    let (target, c) := (c.takeRun isBlank).2.takeRun isUriChar
    if !target.head?.any (fun x => x = '!' || isTagChar x) then m.fault .badDirective
    let target ← uri m target
    if !endsWord c.rest then m.fault .badDirective
    return (.tagDirective (String.ofList handle) target, c)

/-- A tag: between angle brackets, after a handle, or local. -/
def tag (s : Scan) : Except Fault Scan := do
  let s := { s.saveKey with keyAllowed := false }
  let m := s.mark
  let (tag, c) ← match s.rest with
    | '!' :: '<' :: _ => do
      let (run, c) := (s.cursor.skip 2).takeRun isUriChar
      let suffix ← uri m run
      if c.rest.head? ≠ some '>' then m.fault .badTag
      pure (Tag.mk "" suffix, c.skip)
    | _ => do
      let (word, c) := s.cursor.skip.takeRun isWordChar
      if c.rest.head? = some '!' then do
        let (suffix, c) := c.skip.takeRun isTagChar
        if suffix = [] then m.fault .badTag
        pure (Tag.mk (String.ofList ('!' :: word ++ ['!'])) (← uri m suffix), c)
      else do
        let (more, c) := c.takeRun isTagChar
        let suffix := word ++ more
        if suffix = [] then pure (Tag.mk "" "!", c) else pure (Tag.mk "!" (← uri m suffix), c)
  if endsWord c.rest || (s.inFlow && c.rest.head?.any isFlow) then
    return (s.moveTo c).push (.tag tag) m
  else m.fault .badTag

/-- An anchor or an alias. -/
def anchor (s : Scan) (kind : String → TokenKind) : Except Fault Scan := do
  let s := { s.saveKey with keyAllowed := false }
  let (name, c) := s.cursor.skip.takeRun isAnchorChar
  if name = [] then s.mark.fault .emptyAnchorName
  return (s.moveTo c).push (kind (String.ofList name)) s.mark

/-- Brackets can be open in each other up to this depth. -/
def maxDepth : Nat := 255

def openBracket (s : Scan) (bracket : Char) : Except Fault Scan := do
  let s := s.saveKey
  let m := s.mark
  if maxDepth ≤ s.depth then m.fault .tooDeep
  let s := s.rollOne
  let s := { s with depth := s.depth + 1, keys := {} :: s.keys, keyAllowed := true }
  let s := if bracket = '[' then { s with bareMappings := false :: s.bareMappings }
    else { s with mappingOpened := true }
  return (← s.skipIndicator).push
    (if bracket = '[' then .flowSequenceStart else .flowMappingStart) m

/-- Closes the innermost bracket, whichever it is; no bracket need be open. -/
def closeBracket (s : Scan) (bracket : Char) : Except Fault Scan := do
  let m := s.mark
  let s ← s.removeKey
  let s := if s.inFlow then { s with depth := s.depth - 1, keys := s.keys.drop 1 } else s
  let s := { s with keyAllowed := false }
  let s := if bracket = ']' then
      let s := s.endBareMapping
      { s with bareMappings := s.bareMappings.drop 1 }
    else s
  let s ← s.skipIndicator
  let s := if s.inFlow then { s with adjacentColon := some s.mark.offset } else s
  return s.push (if bracket = ']' then .flowSequenceEnd else .flowMappingEnd) m

/-- A comma between brackets. -/
def flowEntry (s : Scan) : Except Fault Scan := do
  let s ← s.removeKey
  let s := { s with keyAllowed := true }.endBareMapping
  return (← s.skipIndicator).push .flowEntry s.mark

/-- The dash of a block sequence. -/
def blockEntry (s : Scan) : Except Fault Scan := do
  let m := s.mark
  if s.inFlow || !s.keyAllowed then m.fault .entryNotAllowed
  if m.column = 0 && -1 < s.indent && s.queue.getLast?.any fun t =>
      t.mark.column = 0 && (t.kind matches .anchor _ || t.kind matches .tag _) then
    m.fault .badIndentation
  let s := (s.moveTo s.cursor.skip).roll m.column none .blockSequenceStart m
  let (blanks, c) ← s.cursor.skipToLineEnd
  if blanks.contains '\t' && c.rest.head? = some '-' && endsWord (c.rest.drop 1) then
    c.mark.fault .tabIndentation
  let s := s.moveTo c
  let s := if c.rest.head?.any fun x => isBreak x || isFlow x then s.rollOne else s
  let s ← s.removeKey
  return ({ s with keyAllowed := true }).push .blockEntry m

/-- The indicator of an explicit key. -/
def explicitKey (s : Scan) : Except Fault Scan := do
  let m := s.mark
  if !s.inFlow && !s.keyAllowed then m.fault .keyNotAllowed
  let s := if s.inFlow then { s with mappingOpened := true }
    else s.roll m.column none .blockMappingStart m
  let s ← s.removeKey
  let s ← ({ s with keyAllowed := !s.inFlow, cursor := s.cursor.skip }).skipSpace
  if s.rest.head? = some '\t' then s.mark.fault .tabIndentation
  return s.push .key m

/-- The colon after a key. -/
def value (s : Scan) : Except Fault Scan := do
  let m := s.mark
  let bare := !s.bareMappings.isEmpty && !s.mappingOpened
  let s := if bare then { s with bareMappings := true :: s.bareMappings.drop 1 } else s
  let s := s.moveTo s.cursor.skip
  let s ← if s.rest.head? = some '\t' then do
      let (blanks, c) ← s.cursor.skipToLineEnd
      if !blanks.contains ' ' && c.rest.head?.any fun x => x = '-' || isWordChar x then
        c.mark.fault .tabIndentation
      pure (s.moveTo c)
    else pure s
  match s.keys with
  | k :: ks =>
    if k.possible then do
      let s := s.insert k.number .key k.mark
      if bare && k.mark.line < m.line then m.fault .keyOnEarlierLine
      let s := if bare then s.insert k.number .flowMappingStart k.mark else s
      let s := (s.roll k.mark.column (some k.number) .blockMappingStart k.mark).rollOne
      return ({ s with keys := { k with possible := false } :: ks, keyAllowed := false }).push .value m
    else do
      let s := if bare then s.push .flowMappingStart m else s
      if !s.inFlow && !s.keyAllowed then m.fault .valueNotAllowed
      let s := (s.roll m.column none .blockMappingStart m).rollOne
      return ({ s with keyAllowed := !s.inFlow }).push .value m
  | [] => m.fault .valueNotAllowed

/-- A colon between brackets that touches what follows it. -/
def touchingValue (s : Scan) : Except Fault Scan :=
  if s.adjacentColon ≠ some s.mark.offset && (s.rest.drop 1).head?.any (fun c => c = '[' || c = '\x7b')
  then s.mark.fault .colonBeforeBracket
  else s.value

def blockScalar (s : Scan) (literal : Bool) : Except Fault Scan := do
  let s := { s.saveKey with keyAllowed := true }.dropBareIndents
  let (text, m, c) ← Scalar.block s.indent literal s.cursor
  return (s.moveTo c).push
    (.scalar (if literal then .literal else .folded) (String.ofList text)) m

def quotedScalar (s : Scan) (single : Bool) : Except Fault Scan := do
  let s := { s.saveKey with keyAllowed := false }
  let m := s.mark
  let (read, c) ← Scalar.quoted m s.indent single .start [] (s.rest.drop 1) m.chars
  let (_, c) ← c.skipToLineEnd
  let ok := match c.rest with
    | [] => true
    | x :: _ => isBreak x || (s.inFlow && (x = ',' || x = '\x7d' || x = ']' || x = ':')) ||
        (x = ':' && m.line = c.mark.line)
  if !ok then c.mark.fault .contentAfterQuote
  let s ← (s.moveTo c).skipToToken
  return ({ s with adjacentColon := some s.mark.offset }).push
    (.scalar .quoted (String.ofList read.reverse)) m

def plainScalar (s : Scan) : Except Fault Scan := do
  let s := { s.saveKey with keyAllowed := false }.dropBareIndents
  let m := s.mark
  let indent := s.indent + 1
  if s.inFlow && m.column < indent then m.fault .badIndentation
  let (read, c) ← Scalar.plain m indent s.inFlow false .start [] s.rest m
  if read = [] then m.fault .emptyScalar
  let s := s.moveTo c
  return ({ s with keyAllowed := s.keyAllowed || c.mark.leading }).push
    (.scalar .plain (String.ofList read.reverse)) m

/-- Reads the next token, with those that go in front of it. -/
def next (s : Scan) : Except Fault Scan := do
  let s ← s.skipToToken
  let s ← s.staleKeys
  let m := s.mark
  let s := s.unroll m.column
  let after := s.rest.drop 1
  if s.rest = [] then s.streamEnd
  else if m.column = 0 && s.rest.head? = some '%' then s.directive
  else if m.column = 0 && isTripled '-' s.rest then s.documentMark .documentStart
  else if m.column = 0 && isTripled '.' s.rest then do
    let s ← s.documentMark .documentEnd
    let (_, c) ← s.cursor.skipToLineEnd
    if !endsLine c.rest then c.mark.fault .contentAfterDocument
    return s.moveTo c
  else if m.column < s.indent then m.fault .badIndentation
  else match s.rest.headD ' ' with
    | '[' => s.openBracket '['
    | '\x7b' => s.openBracket '\x7b'
    | ']' => s.closeBracket ']'
    | '\x7d' => s.closeBracket '\x7d'
    | ',' => s.flowEntry
    | '*' => s.anchor .alias
    | '&' => s.anchor .anchor
    | '!' => s.tag
    | '\x27' => s.quotedScalar true
    | '\x22' => s.quotedScalar false
    | '|' => if s.inFlow then s.plainScalar else s.blockScalar true
    | '>' => if s.inFlow then s.plainScalar else s.blockScalar false
    | '-' => if endsWord after then s.blockEntry else s.plainScalar
    | '?' => if endsWord after then s.explicitKey else s.plainScalar
    | ':' =>
      if endsWord after then s.value
      else if s.inFlow && (after.head?.any isFlow || s.adjacentColon = some m.offset) then
        s.touchingValue
      else s.plainScalar
    | '%' => m.fault (.unexpectedCharacter '%')
    | '@' => m.fault (.unexpectedCharacter '@')
    | '\x60' => m.fault (.unexpectedCharacter '\x60')
    | _ => s.plainScalar

/-- The number of tokens in the queue that come before any possible key. -/
def readyCount (s : Scan) : Nat :=
  (s.keys.filter (·.possible)).foldl (fun n k => min n (k.number - s.given)) s.queue.length

/-- Reads tokens until the text is at its end or a fault shows. Every round reads one character at
least, so there are no more rounds than characters, and one more for the end. -/
def run : Nat → Scan → List Token → List Token
  | 0, _, done => done.reverse
  | n + 1, s, done =>
    match s.next.bind fun s => if s.queue.isEmpty then .ok s else s.staleKeys with
    | .error f => (⟨.broken f, s.mark⟩ :: done).reverse
    | .ok s =>
      let ready := s.readyCount
      let done := (s.queue.take ready).reverse ++ done
      match done with
      | ⟨.streamEnd, _⟩ :: _ => done.reverse
      | _ => run n { s with queue := s.queue.drop ready, given := s.given + ready } done

end Scan

/-- The tokens of a text up to its end or to the first fault. -/
def tokens (text : List Char) : List Token :=
  Scan.run (text.length + 1) { cursor := { rest := text } } []

end Provenance.Yaml
