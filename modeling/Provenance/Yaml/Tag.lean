import Provenance.Yaml.Cursor

/-!
Tags: what a text says about the kind of a node. A tag is given by a handle, which stands for a text,
and a suffix. The kinds that have a meaning are named by the core tags and, in short, by local tags
of the same names; every other tag says nothing that matters here.
-/

namespace Provenance.Yaml

/-- A tag: a handle, or the text that it stands for, and what follows it. -/
structure Tag where
  handle : String
  suffix : String
  deriving DecidableEq, Repr

/-- The kind of node that a tag stands for. -/
inductive TagKind where
  | untagged
  /-- The tag that consists of an exclamation mark alone. -/
  | unspecific
  | null
  | truth
  | integer
  | float
  | text
  | binary
  | sequence
  | mapping
  | time
  | degrees
  | radians
  | other
  deriving DecidableEq, Repr

namespace TagKind

/-- The kinds that have a name. -/
def named : List (String × TagKind) := [
  ("null", null), ("bool", truth), ("int", integer), ("float", float), ("str", text),
  ("binary", binary), ("seq", sequence), ("map", mapping), ("timestamp", time), ("time", time),
  ("degrees", degrees), ("radians", radians)]

/-- Whether a scalar of the kind can be read as the text that it is written as. -/
def isTextual : TagKind → Bool
  | untagged => true
  | unspecific => true
  | text => true
  | other => true
  | _ => false

end TagKind

namespace Tag

/-- What the handle of the core tags stands for. -/
def core : String := "tag:yaml.org,2002:"

/-- The kind of a tag whose handle is resolved. -/
def kind (t : Tag) : TagKind :=
  if t.handle = core then (TagKind.named.lookup t.suffix).getD .other
  else match (t.handle ++ t.suffix).toList with
    | ['!'] => .unspecific
    | '!' :: name => (TagKind.named.lookup (String.ofList name)).getD .other
    | _ => .other

/-- The character that some escaped bytes stand for: their number in base 256. -/
def escaped? (code : Nat) : Option Char := if code.isValidChar then some (Char.ofNat code) else none

/-- The number of bytes in a sequence that starts with a byte. -/
def sequenceLength? (byte : Nat) : Option Nat :=
  if byte < 0x80 then some 1
  else if byte / 0x20 = 6 then some 2
  else if byte / 0x10 = 14 then some 3
  else if byte / 8 = 30 then some 4
  else none

/-- Replaces percent escapes, each of which gives a byte in hexadecimal, by the characters of the
bytes. `more` bytes of a sequence with the value `code` so far are still to come. -/
def unescape (more code : Nat) : List Char → Option (List Char)
  | '%' :: a :: b :: r => do
    let byte := 16 * (← hexDigit? a) + (← hexDigit? b)
    let (more, code) ← match more with
      | 0 => do pure ((← sequenceLength? byte) - 1, byte)
      | more + 1 => if byte / 0x40 = 2 then some (more, 256 * code + byte) else none
    if more = 0 then return (← escaped? code) :: (← unescape 0 0 r)
    else unescape more code r
  | c :: r => if more = 0 && c ≠ '%' then (unescape 0 0 r).map (c :: ·) else none
  | [] => if more = 0 then some [] else none

end Tag

end Provenance.Yaml
