import Provenance.Yaml.Cursor

/-!
The text of scalars, in the four ways to write one: plain, in quotes, and as a block whose line ends
are kept or folded. A line break within a plain or quoted scalar, with the blanks around it, is
folded into a space, and further breaks are kept.
-/

namespace Provenance.Yaml

/-- The blanks and breaks met since the last character of a scalar. -/
inductive Gap where
  /-- Nothing, right at the start. -/
  | start
  /-- Nothing, after a character. -/
  | none
  /-- Blanks on one line, the last first. -/
  | blanks (bs : List Char)
  /-- A break, which is folded into a space or left out, and `more` breaks after it. -/
  | breaks (fold : Bool) (more : Nat)

namespace Gap

/-- The gap after one more blank. A blank next to a break is left out. -/
def blank (c : Char) : Gap → Gap
  | start => blanks [c]
  | none => blanks [c]
  | blanks bs => blanks (c :: bs)
  | breaks fold n => breaks fold n

/-- The gap after one more break. -/
def newline : Gap → Gap
  | breaks fold n => breaks fold (n + 1)
  | _ => breaks true 0

/-- What a gap leaves in the scalar, the last character first. -/
def text : Gap → List Char
  | start => []
  | none => []
  | blanks bs => bs
  | breaks true 0 => [' ']
  | breaks _ n => List.replicate n '\n'

/-- Whether a line break is in the gap. -/
def isBroken : Gap → Bool
  | breaks _ _ => true
  | _ => false

/-- Whether a character after the gap does not directly follow another one. -/
def isOpen : Gap → Bool
  | none => false
  | _ => true

end Gap

namespace Scalar

/-- Whether a plain scalar goes on with a character, before others. -/
def isPlain (inFlow : Bool) (c : Char) (after : List Char) : Bool :=
  !(c = ':' && (endsWord after || (inFlow && after.head?.any isFlow))) && !(inFlow && isFlow c)

/-- Reads a plain scalar whose continuation lines are indented by `indent` columns. The text read so
far has its last character first. A tab in the indentation starts a line without content: `skipping`
holds for the rest of such a line. -/
def plain (start : Mark) (indent : Int) (inFlow skipping : Bool) (gap : Gap) (read : List Char) :
    List Char → Mark → Except Fault (List Char × Cursor)
  | [], m => .ok (read, ⟨[], m⟩)
  | '\r' :: '\n' :: r, m => plain start indent inFlow false gap.newline read r (m.newline 2)
  | c :: r, m =>
    if isBreak c then plain start indent inFlow false gap.newline read r m.newline
    else if skipping then plain start indent inFlow true gap read r m.blank
    else if isBlank c then
      if gap.isBroken && c = '\t' && m.column < indent then
        if Cursor.isLineOver (c :: r) then plain start indent inFlow true gap read r m.blank
        else start.fault .tabIndentation
      else plain start indent inFlow false (gap.blank c) read r m.blank
    else
      let started := gap matches .start
      let stop := (gap.isOpen && !started && !inFlow && m.column < indent) ||
        (gap.isOpen && ((m.leading && isDocumentMark (c :: r)) || c = '#'))
      if stop then .ok (read, ⟨c :: r, m⟩)
      else if gap.isOpen && inFlow && c = '-' && r.head?.any isFlow then
        m.fault .dashBeforeBracket
      else if isPlain inFlow c r then
        plain start indent inFlow false .none (c :: gap.text ++ read) r m.chars
      else .ok (read, ⟨c :: r, m⟩)

/-- The character of an escape that has no digits. -/
def simpleEscape? : Char → Option Char
  | '0' => some '\x00'
  | 'a' => some '\x07'
  | 'b' => some '\x08'
  | 't' => some '\t'
  | '\t' => some '\t'
  | 'n' => some '\n'
  | 'v' => some '\x0b'
  | 'f' => some '\x0c'
  | 'r' => some '\r'
  | 'e' => some '\x1b'
  | ' ' => some ' '
  | '\x22' => some '\x22'
  | '/' => some '/'
  | '\\' => some '\\'
  | 'N' => some '\u0085'
  | '_' => some '\u00a0'
  | 'L' => some '\u2028'
  | 'P' => some '\u2029'
  | _ => none

/-- The character of a code point in hexadecimal digits. -/
def hexChar? (ds : List Char) : Option Char := do
  let n ← ds.foldlM (fun n c => do return 16 * n + (← hexDigit? c)) 0
  if n.isValidChar then some (Char.ofNat n) else none

/-- Reads the rest of a quoted scalar, up to and with its closing quote. The text read so far has its
last character first. Lines must be indented, but for a closing quote right after an escaped line
break. -/
def quoted (start : Mark) (indent : Int) (single : Bool) (gap : Gap) (read : List Char) :
    List Char → Mark → Except Fault (List Char × Cursor)
  | [], _ => start.fault .unclosedQuote
  | '\r' :: '\n' :: r, m => quoted start indent single gap.newline read r (m.newline 2)
  | c :: r, m =>
    if isBreak c then quoted start indent single gap.newline read r m.newline
    else if isBlank c then
      if gap.isBroken && c = '\t' && m.column < indent then m.fault .tabIndentation
      else quoted start indent single (gap.blank c) read r m.blank
    else if !single && c = '\x22' && m.column = 0 && (gap matches .breaks false 0) then
      .ok (read, ⟨r, m.chars⟩)
    else if gap.isOpen && m.column = 0 && isDocumentMark (c :: r) then
      start.fault .documentMarkInQuote
    else if gap.isOpen && m.column < indent then start.fault .badIndentation
    else
      let read := gap.text ++ read
      match single, c, r with
      | true, '\x27', '\x27' :: r => quoted start indent single .none ('\x27' :: read) r (m.chars 2)
      | true, '\x27', r => .ok (read, ⟨r, m.chars⟩)
      | false, '\x22', r => .ok (read, ⟨r, m.chars⟩)
      | false, '\\', '\r' :: '\n' :: r =>
        quoted start indent single (.breaks false 0) read r (m.chars.newline 2)
      | false, '\\', '\r' :: r => quoted start indent single (.breaks false 0) read r m.chars.newline
      | false, '\\', '\n' :: r => quoted start indent single (.breaks false 0) read r m.chars.newline
      | false, '\\', 'x' :: a :: b :: r =>
        match hexChar? [a, b] with
        | some e => quoted start indent single .none (e :: read) r (m.chars 4)
        | none => start.fault .badEscape
      | false, '\\', 'u' :: a :: b :: c :: d :: r =>
        match hexChar? [a, b, c, d] with
        | some e => quoted start indent single .none (e :: read) r (m.chars 6)
        | none => start.fault .badEscape
      | false, '\\', 'U' :: a :: b :: c :: d :: e :: f :: g :: h :: r =>
        match hexChar? [a, b, c, d, e, f, g, h] with
        | some e => quoted start indent single .none (e :: read) r (m.chars 10)
        | none => start.fault .badEscape
      | false, '\\', e :: r =>
        match simpleEscape? e with
        | some e => quoted start indent single .none (e :: read) r (m.chars 2)
        | none => start.fault .badEscape
      | false, '\\', [] => start.fault .badEscape
      | _, c, r => quoted start indent single .none (c :: read) r m.chars

/-- What to do with the line breaks at the end of a block scalar. -/
inductive Chomping where
  | strip
  | clip
  | keep
  deriving DecidableEq

/-- A block scalar's indicators: what becomes of its last breaks, and its indentation if given. -/
structure BlockHeader where
  chomping : Chomping := .clip
  increment : Nat := 0

/-- Reads a block scalar's indicators, in either order. -/
def blockHeader : List Char → Option (BlockHeader × Nat)
  | c :: d :: _ =>
    match chomping? c, digit? c, chomping? d, digit? d with
    | some ch, _, _, some n => positive n ⟨ch, n⟩ 2
    | some ch, _, _, none => some (⟨ch, 0⟩, 1)
    | none, some n, some ch, _ => positive n ⟨ch, n⟩ 2
    | none, some n, none, _ => positive n ⟨.clip, n⟩ 1
    | none, none, _, _ => some ({}, 0)
  | [c] =>
    match chomping? c, digit? c with
    | some ch, _ => some (⟨ch, 0⟩, 1)
    | none, some n => positive n ⟨.clip, n⟩ 1
    | none, none => some ({}, 0)
  | [] => some ({}, 0)
where
  chomping? (c : Char) : Option Chomping :=
    if c = '+' then some .keep else if c = '-' then some .strip else none
  digit? (c : Char) : Option Nat := if c.isDigit then some (c.toNat - '0'.toNat) else none
  positive (n : Nat) (h : BlockHeader) (length : Nat) : Option (BlockHeader × Nat) :=
    if n = 0 then none else some (h, length)

/-- Goes past empty lines and up to `limit` columns of indentation, and counts the lines. -/
def skipIndent (limit : Nat) (lines : Nat) : List Char → Mark → Nat × Cursor
  | [], m => (lines, ⟨[], m⟩)
  | '\r' :: '\n' :: r, m => skipIndent limit (lines + 1) r (m.newline 2)
  | c :: r, m =>
    if isBreak c then skipIndent limit (lines + 1) r m.newline
    else if c = ' ' && m.column < limit then skipIndent limit lines r m.blank
    else (lines, ⟨c :: r, m⟩)

/-- Goes past empty lines and all indentation, counts the lines, and gives the widest indentation. -/
def findIndent (widest lines : Nat) : List Char → Mark → Nat × Nat × Cursor
  | [], m => (max widest m.column, lines, ⟨[], m⟩)
  | '\r' :: '\n' :: r, m => findIndent (max widest m.column) (lines + 1) r (m.newline 2)
  | c :: r, m =>
    if isBreak c then findIndent (max widest m.column) (lines + 1) r m.newline
    else if c = ' ' then findIndent widest lines r m.blank
    else (max widest m.column, lines, ⟨c :: r, m⟩)

/-- The content of a block scalar, as read so far. -/
structure Block where
  /-- The text up to the last content line, with the last character first. -/
  read : List Char := []
  /-- Whether a content line has ended and its break was not placed yet. -/
  pendingBreak : Bool := false
  /-- The number of empty lines since. -/
  emptyLines : Nat := 0
  /-- Whether the last content line started with a blank. -/
  afterBlank : Bool := false

/-- Places the breaks before a content line that starts with a character. Between two lines that both
start with no blank, folding makes one break a space. -/
def Block.startLine (literal : Bool) (b : Block) (c : Char) : Block :=
  let folds := !literal && b.pendingBreak && !b.afterBlank && !isBlank c
  let breaks := List.replicate b.emptyLines '\n'
  let gap :=
    if folds then if b.emptyLines = 0 then [' '] else breaks
    else if b.pendingBreak then '\n' :: breaks else breaks
  ⟨c :: gap ++ b.read, false, 0, isBlank c⟩

/-- Reads the lines of a block scalar, from within a line or from before one. -/
def blockLines (literal : Bool) (indent : Nat) (inLine : Bool) (b : Block) :
    List Char → Mark → Block × Cursor
  | [], m => (b, ⟨[], m⟩)
  | '\r' :: '\n' :: r, m =>
    let b := if inLine then { b with pendingBreak := true } else { b with emptyLines := b.emptyLines + 1 }
    blockLines literal indent false b r (m.newline 2)
  | c :: r, m =>
    if isBreak c then
      let b :=
        if inLine then { b with pendingBreak := true } else { b with emptyLines := b.emptyLines + 1 }
      blockLines literal indent false b r m.newline
    else if inLine then blockLines literal indent true { b with read := c :: b.read } r m.chars
    else if c = ' ' && m.column < indent then blockLines literal indent false b r m.blank
    else if m.column = indent && !(indent = 0 && isTripled '.' (c :: r)) then
      blockLines literal indent true (b.startLine literal c) r m.chars
    else (b, ⟨c :: r, m⟩)

/-- The text of a block scalar once its lines are read. -/
def Block.finish (chomping : Chomping) (indent : Nat) (b : Block) (c : Cursor) : List Char :=
  let ends := if b.pendingBreak then ['\n'] else []
  let unended := if c.rest = [] && max indent 1 ≤ c.mark.column then ['\n'] else []
  let kept := List.replicate b.emptyLines '\n'
  b.read.reverse ++ match chomping with
    | .strip => []
    | .clip => ends ++ unended
    | .keep => ends ++ unended ++ kept

/-- Reads a block scalar inside a collection at an indentation, from its indicator on. The scalar
counts as standing where its first line does, or at the indicator if the text ends before. -/
def block (outer : Int) (literal : Bool) (c : Cursor) : Except Fault (List Char × Mark × Cursor) := do
  let start := c.mark
  let some (header, n) := blockHeader (c.rest.drop 1) | start.fault .badBlockHeader
  let (_, c) ← (c.skip (n + 1)).skipToLineEnd
  if !endsLine c.rest then start.fault .badBlockHeader
  let hasBreak := c.rest ≠ []
  let c := c.skipBreak
  if c.rest.head? = some '\t' then start.fault .tabIndentation
  let (indent, lines, c) :=
    if header.increment = 0 then
      let (widest, lines, c) := findIndent 0 0 c.rest c.mark
      let least := max (outer + 1).toNat (if 0 < outer then 1 else 0)
      (max widest least, lines, c)
    else
      let indent := (max outer 0).toNat + header.increment
      let (lines, c) := skipIndent indent 0 c.rest c.mark
      (indent, lines, c)
  if c.rest = [] then
    let breaks := match header.chomping with
      | .strip => 0
      | .clip => 1
      | .keep => max lines 1
    return (if hasBreak then List.replicate breaks '\n' else [], start, c)
  if c.mark.column < indent && outer < c.mark.column then c.mark.fault .badIndentation
  let content := c.mark
  let (b, c) := blockLines literal indent false { emptyLines := lines } c.rest c.mark
  return (b.finish header.chomping indent c, content, c)

end Scalar

end Provenance.Yaml
