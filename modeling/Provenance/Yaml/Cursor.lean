import Provenance.Yaml.Fault

/-!
A cursor over a YAML text: the characters to come, and the place reached. The kinds of characters
that YAML tells apart are here as well; the end of the text counts as the end of a line.
-/

namespace Provenance.Yaml

def isBlank (c : Char) : Bool := c = ' ' || c = '\t'

def isBreak (c : Char) : Bool := c = '\n' || c = '\r'

/-- The characters that have a meaning of their own between brackets. -/
def isFlow (c : Char) : Bool := [',', '[', ']', '{', '}'].contains c

/-- Whether the next character ends the line. -/
def endsLine (s : List Char) : Bool := s.head?.all isBreak

/-- Whether the next character is blank or ends the line. -/
def endsWord (s : List Char) : Bool := s.head?.all fun c => isBlank c || isBreak c

/-- Whether the text starts with three copies of a character, as a word. -/
def isTripled (c : Char) (s : List Char) : Bool :=
  s.take 3 = List.replicate 3 c && endsWord (s.drop 3)

/-- Whether the text starts with a mark that starts or ends a document. -/
def isDocumentMark (s : List Char) : Bool := isTripled '-' s || isTripled '.' s

/-- A letter, digit, hyphen or underscore. -/
def isWordChar (c : Char) : Bool := c.isAlphanum || c = '-' || c = '_'

/-- A character of a tag's URI. -/
def isUriChar (c : Char) : Bool :=
  c.isAlphanum || c = '-' || "#;/?:@&=+$,_.!~*'()[]%".toList.contains c

/-- A character of a tag, which ends where a bracket or another tag could begin. -/
def isTagChar (c : Char) : Bool := isUriChar c && !isFlow c && c ≠ '!'

/-- The value of a hexadecimal digit. -/
def hexDigit? (c : Char) : Option Nat :=
  if c.isDigit then some (c.toNat - '0'.toNat)
  else if 'a' ≤ c ∧ c ≤ 'f' then some (c.toNat - 'a'.toNat + 10)
  else if 'A' ≤ c ∧ c ≤ 'F' then some (c.toNat - 'A'.toNat + 10)
  else none

/-- A character of an anchor's name. -/
def isAnchorChar (c : Char) : Bool := !isBlank c && !isBreak c && !isFlow c && c ≠ '\ufeff'

/-- A place in a text: the line from one, the column and the offset from zero. -/
structure Mark where
  line : Nat := 1
  column : Nat := 0
  offset : Nat := 0
  /-- Whether the line holds nothing but blanks up to here. -/
  leading : Bool := true
  deriving Repr

namespace Mark

def location (m : Mark) : Source.Location := ⟨m.line, m.column + 1⟩

/-- The place after a blank. -/
def blank (m : Mark) : Mark := { m with column := m.column + 1, offset := m.offset + 1 }

/-- The place after some characters that are not blank. -/
def chars (m : Mark) (n : Nat := 1) : Mark :=
  { m with column := m.column + n, offset := m.offset + n, leading := false }

/-- The place after a line break of `n` characters. -/
def newline (m : Mark) (n : Nat := 1) : Mark := ⟨m.line + 1, 0, m.offset + n, true⟩

/-- The fault of a cause at a place. -/
def fault {α : Type} (m : Mark) (cause : Cause) : Except Fault α := .error ⟨cause, some m.location⟩

end Mark

structure Cursor where
  rest : List Char
  mark : Mark := {}

namespace Cursor

/-- Goes past some characters that are not blank. -/
def skip (c : Cursor) (n : Nat := 1) : Cursor := ⟨c.rest.drop n, c.mark.chars n⟩

/-- Takes the longest run of characters of a kind. -/
def takeRun (c : Cursor) (kind : Char → Bool) : List Char × Cursor :=
  let run := c.rest.takeWhile kind
  let mark := run.foldl (fun m x => if isBlank x then m.blank else m.chars) c.mark
  (run, ⟨c.rest.drop run.length, mark⟩)

/-- Goes past a line break, if there is one. -/
def skipBreak (c : Cursor) : Cursor :=
  match c.rest with
  | '\r' :: '\n' :: r => ⟨r, c.mark.newline 2⟩
  | '\r' :: r => ⟨r, c.mark.newline⟩
  | '\n' :: r => ⟨r, c.mark.newline⟩
  | _ => c

/-- Goes past blanks of a kind and a comment, which blanks must come before, and gives the blanks. -/
def skipToLineEnd (c : Cursor) (kind : Char → Bool := isBlank) :
    Except Fault (List Char × Cursor) :=
  let (blanks, c) := c.takeRun kind
  if c.rest.head? = some '#' then
    if blanks = [] then c.mark.fault .commentNotSeparated
    else .ok (blanks, (c.takeRun (!isBreak ·)).2)
  else .ok (blanks, c)

/-- Whether only blanks and a comment come before the end of the line. -/
def isLineOver (s : List Char) : Bool :=
  (s.dropWhile isBlank).head?.all fun c => isBreak c || c = '#'

end Cursor

end Provenance.Yaml
