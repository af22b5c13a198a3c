import Provenance.Text.Blank

/-!
Places in a source text. A place is given by line and column, both counted from one and the column in
characters, and stands for a byte offset; the place of an offset on a character boundary leads back
to that offset. A fault at a place is shown as a span of bytes, and with a hint where the text or the
message suggests a common mistake.
-/

namespace Provenance.Source

/-- A place in a text. -/
structure Location where
  line : Nat
  column : Nat
  deriving DecidableEq, Repr

/-- The bytes from an offset on. -/
structure Span where
  offset : Nat
  length : Nat
  deriving DecidableEq, Repr

/-- The number of bytes of some characters. -/
def byteLength : List Char → Nat
  | [] => 0
  | c :: r => c.utf8Size + byteLength r

/-- The lines of a text, each with the line end that closes it. -/
def lines : List Char → List (List Char)
  | [] => []
  | c :: r =>
    if c = '\n' then [c] :: lines r
    else match lines r with
      | [] => [[c]]
      | l :: ls => (c :: l) :: ls

/-- A line without its line end. -/
def withoutEnd (line : List Char) : List Char :=
  let line := if line.getLast? = some '\n' then line.dropLast else line
  if line.getLast? = some '\r' then line.dropLast else line

/-- The byte offset of a place. A column past the end of a line stands for the end of the line, and a
line past the last one for the end of the text. -/
def byteIndex (src : List Char) (l : Location) : Nat :=
  let ls := lines src
  match ls[l.line - 1]? with
  | some line => byteLength (ls.take (l.line - 1)).flatten +
      byteLength ((withoutEnd line).take (l.column - 1))
  | none => byteLength src

/-- Whether a byte is part of a line end. -/
def isLineEnd (b : UInt8) : Bool := b = 10 || b = 13

/-- The span shown for a place: the byte at its offset or, where the line ends, the byte before. -/
def span (src : List Char) (l : Location) : Span :=
  let bytes := (String.ofList src).toUTF8.toList
  let isInner (i : Nat) : Bool := (bytes[i]?).any (!isLineEnd ·)
  let place := byteIndex src l
  if isInner place then ⟨place, 1⟩
  else if 0 < place && isInner (place - 1) then ⟨place - 1, 1⟩
  else ⟨place, 0⟩

/-- Whether the line of a place starts with blanks among which there is a tab. -/
def isTabIndented (src : List Char) (l : Location) : Bool :=
  (((lines src)[l.line - 1]?.getD []).takeWhile fun c => Text.isBlank c && c ≠ '\n').contains '\t'

/-- The small form of the letters whose small form is one ASCII letter; other characters stay. -/
def lower (c : Char) : Char := if c = '\u212a' then 'k' else c.toLower

/-- Whether a text holds another one. -/
def holds (needle : List Char) : List Char → Bool
  | [] => needle.isEmpty
  | c :: r => needle.isPrefixOf (c :: r) || holds needle r

/-- What to advise where a message speaks of something, the first that fits. -/
def advice : List (String × String) := [
  ("did not find expected '-'", "Start list items with '-' and ensure proper indentation."),
  ("mapping values are not allowed",
    "Check for a stray ':' or add quotes around values where needed."),
  ("found character that cannot start any token",
    "Remove stray characters and ensure indentation uses spaces (no tabs).")]

/-- The hint for a fault with a message, at a place if one is known. -/
def hint? (src : List Char) (message : String) (l? : Option Location) : Option String :=
  if l?.any (isTabIndented src) then some "Use spaces for indentation; tabs are invalid in YAML."
  else
    let message := message.toList.map lower
    (advice.find? fun a => holds a.1.toList message).map Prod.snd

end Provenance.Source
