import Provenance.Report
import Provenance.Text.Fields

/-!
The listing of printed actions: one block per action, one line per field. Field values are quoted so
that no value holds a line end or an unescaped quote, and the listing can be read back.
-/

namespace Provenance.Listing

/-- A character within quotes. -/
def escape (c : Char) : List Char :=
  match c with
  | '\x22' => ['\\', '\x22']
  | '\\' => ['\\', '\\']
  | '\n' => ['\\', 'n']
  | '\t' => ['\\', 't']
  | c => [c]

/-- A text in quotes. -/
def quoted (s : String) : List Char := '\x22' :: s.toList.flatMap escape ++ ['\x22']

/-- One line of a block. -/
def line (name value : String) : List Char :=
  ' ' :: ' ' :: name.toList ++ ':' :: ' ' :: quoted value ++ ['\n']

/-- The fields of an entry, in the order of the listing. -/
def fieldsOf (e : Entry) : List (String × String) :=
  ("id", e.id) :: (e.owner.toList.map ("owner", ·)) ++ ("mnemonic", e.mnemonic) ::
    (e.arguments.map ("argument", ·) ++ e.inputs.map ("input", ·) ++ e.outputs.map ("output", ·))

/-- The block of an entry. -/
def block (e : Entry) : List Char :=
  "action \x7b\n".toList ++ (fieldsOf e).flatMap (fun f => line f.1 f.2) ++ "\x7d\n".toList

/-- The listing of some entries. -/
def render (es : List Entry) : String := String.ofList (es.flatMap block)

end Provenance.Listing
