import Provenance.Report
import Provenance.Text.Fields

/-!
Printed actions as a JSON document: an object whose only member lists one object per action, laid
out with two spaces of indentation per level. A member without a value is left out, and an empty
list stays on one line.
-/

namespace Provenance.Json

/-- Two hexadecimal digits. -/
def hexByte (n : Nat) : List Char := [Nat.digitChar (n / 16), Nat.digitChar (n % 16)]

/-- A character within a JSON string. -/
def escape (c : Char) : List Char :=
  match c with
  | '\x22' => ['\\', '\x22']
  | '\\' => ['\\', '\\']
  | '\x08' => ['\\', 'b']
  | '\x0c' => ['\\', 'f']
  | '\n' => ['\\', 'n']
  | '\r' => ['\\', 'r']
  | '\t' => ['\\', 't']
  | c => if c.toNat < 32 then ['\\', 'u', '0', '0'] ++ hexByte c.toNat else [c]

/-- A JSON string. -/
def text (s : String) : List Char := '\x22' :: s.toList.flatMap escape ++ ['\x22']

/-- A line end and the indentation of a level. -/
def newline (level : Nat) : List Char := '\n' :: List.replicate (2 * level) ' '

/-- Values between brackets at a level, each on lines of its own; nothing stands between the brackets
when there are none. -/
def bracketed (left right : Char) (level : Nat) (values : List (List Char)) : List Char :=
  match values with
  | [] => [left, right]
  | _ => left :: newline (level + 1) ++ Text.join (',' :: newline (level + 1)) values ++
      newline level ++ [right]

/-- A list of strings. -/
def texts (level : Nat) (ss : List String) : List Char := bracketed '[' ']' level (ss.map text)

/-- A member of an object. -/
def member (name : String) (value : List Char) : List Char := text name ++ ':' :: ' ' :: value

/-- The members of an entry, in the order of the document. -/
def members (level : Nat) (e : Entry) : List (List Char) :=
  member "id" (text e.id) :: (e.owner.toList.map fun o => member "owner" (text o)) ++
    [member "mnemonic" (text e.mnemonic),
     member "arguments" (texts level e.arguments),
     member "inputs" (texts level e.inputs),
     member "outputs" (texts level e.outputs)]

/-- The object of an entry. -/
def object (level : Nat) (e : Entry) : List Char :=
  bracketed '\x7b' '\x7d' level (members (level + 1) e)

/-- The document of some entries. -/
def render (es : List Entry) : String :=
  String.ofList (bracketed '\x7b' '\x7d' 0 [member "actions" (bracketed '[' ']' 1 (es.map (object 2)))])

end Provenance.Json
