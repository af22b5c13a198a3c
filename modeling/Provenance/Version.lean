import Provenance.Text.Shown

/-!
Semantic versions: three numbers, then an optional pre-release part after a hyphen and an optional
build part after a plus sign, each a dotted list of identifiers. Numbers have no leading zeros and
fit 64 bits; in a pre-release part the same rule on zeros holds for identifiers of digits alone.
-/

namespace Provenance

structure Version where
  major : Nat
  minor : Nat
  patch : Nat
  preRelease : List Char := []
  build : List Char := []
  deriving DecidableEq

namespace Version

/-- The parts of a version, as errors name them. -/
inductive Part where
  | major
  | minor
  | patch
  | preRelease
  | build
  deriving DecidableEq

namespace Part

def name : Part → String
  | major => "major version number"
  | minor => "minor version number"
  | patch => "patch version number"
  | preRelease => "pre-release identifier"
  | build => "build metadata"

end Part

/-- Why a text is no version. -/
inductive Fault where
  | empty
  | unexpectedEnd (part : Part)
  | unexpectedChar (part : Part) (c : Char)
  | unexpectedAfter (part : Part) (c : Char)
  | leadingZero (part : Part)
  | overflow (part : Part)
  | emptySegment (part : Part)
  deriving DecidableEq

namespace Fault

/-- A character in single quotes, as messages show it. -/
def quoted (c : Char) : String := String.ofList (Text.shownIn '\x27' [c])

def message : Fault → String
  | empty => "empty string, expected a semver version"
  | unexpectedEnd p => s!"unexpected end of input while parsing {p.name}"
  | unexpectedChar p c => s!"unexpected character {quoted c} while parsing {p.name}"
  | unexpectedAfter p c => s!"unexpected character {quoted c} after {p.name}"
  | leadingZero p => s!"invalid leading zero in {p.name}"
  | overflow p => s!"value of {p.name} exceeds u64::MAX"
  | emptySegment p => s!"empty identifier segment in {p.name}"

end Fault

/-- Numbers stay below this bound. -/
def bound : Nat := UInt64.size

/-- Reads the digits of a number on from a value that is not zero. -/
def digits (part : Part) (value : Nat) : List Char → Except Fault (Nat × List Char)
  | c :: r =>
    if c.isDigit then
      let value := 10 * value + (c.toNat - '0'.toNat)
      if value < bound then digits part value r else .error (.overflow part)
    else .ok (value, c :: r)
  | [] => .ok (value, [])

/-- Reads a number without a leading zero. -/
def number (part : Part) : List Char → Except Fault (Nat × List Char)
  | [] => .error (.unexpectedEnd part)
  | '0' :: r => if r.head?.any Char.isDigit then .error (.leadingZero part) else .ok (0, r)
  | c :: r => if c.isDigit then digits part 0 (c :: r) else .error (.unexpectedChar part c)

/-- Reads the dot after a number. -/
def dot (part : Part) : List Char → Except Fault (List Char)
  | [] => .error (.unexpectedEnd part)
  | '.' :: r => .ok r
  | c :: _ => .error (.unexpectedAfter part c)

/-- A character of an identifier. -/
def isIdentifierChar (c : Char) : Bool := c.isAlphanum || c = '-'

/-- Whether an identifier breaks the rule on zeros, which holds for pre-release parts. -/
def hasLeadingZero (part : Part) (identifier : List Char) : Bool :=
  part = .preRelease && identifier.all Char.isDigit && 1 < identifier.length &&
    identifier.head? = some '0'

/-- Reads a dotted list of identifiers, of which `current` is read in part, last character first. -/
def identifiers (part : Part) (current : List Char) :
    List Char → Except Fault (List Char × List Char)
  | c :: r =>
    if isIdentifierChar c then do
      let (read, rest) ← identifiers part (c :: current) r
      return (c :: read, rest)
    else if current = [] then .error (.emptySegment part)
    else if hasLeadingZero part current.reverse then .error (.leadingZero part)
    else if c = '.' then do
      let (read, rest) ← identifiers part [] r
      return (c :: read, rest)
    else .ok ([], c :: r)
  | [] =>
    if current = [] then .error (.emptySegment part)
    else if hasLeadingZero part current.reverse then .error (.leadingZero part)
    else .ok ([], [])

/-- Reads an optional part that a character introduces, and names the last part read. -/
def optionalPart (part before : Part) (mark : Char) :
    List Char → Except Fault (List Char × Part × List Char)
  | c :: r =>
    if c = mark then do
      let (read, rest) ← identifiers part [] r
      return (read, part, rest)
    else .ok ([], before, c :: r)
  | [] => .ok ([], before, [])

/-- Reads a version. -/
def parse (s : String) : Except Fault Version :=
  if s = "" then .error .empty
  else do
    let (major, r) ← number .major s.toList
    let (minor, r) ← number .minor (← dot .major r)
    let (patch, r) ← number .patch (← dot .minor r)
    let (preRelease, last, r) ← optionalPart .preRelease .patch '-' r
    let (build, last, r) ← optionalPart .build last '+' r
    match r with
    | [] => return { major, minor, patch, preRelease, build }
    | c :: _ => .error (.unexpectedAfter last c)

/-- The written form of a version. -/
def toString (v : Version) : String :=
  let part (mark : Char) (text : List Char) := String.ofList (if text = [] then [] else mark :: text)
  s!"{v.major}.{v.minor}.{v.patch}" ++ part '-' v.preRelease ++ part '+' v.build

instance : ToString Version := ⟨toString⟩

end Version

end Provenance
