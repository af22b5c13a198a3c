import Provenance.Text.Invisible

/-!
Texts as messages show them: in double quotes, with escapes for quotes, backslashes and every
character that could not be told apart when printed as itself.
-/

namespace Provenance.Text

/-- A code point in braces, in lower-case hexadecimal. -/
def codePoint (c : Char) : List Char :=
  ['\\', 'u', '\x7b'] ++ Nat.toDigits 16 c.toNat ++ ['\x7d']

/-- A character as a message shows it, inside the given quotes. -/
def shownChar (quote c : Char) : List Char :=
  if c = quote then ['\\', c]
  else match c with
    | '\\' => ['\\', '\\']
    | '\n' => ['\\', 'n']
    | '\r' => ['\\', 'r']
    | '\t' => ['\\', 't']
    | '\x00' => ['\\', '0']
    | _ => if isInvisible c then codePoint c else [c]

/-- A text between copies of a quote, with its characters shown. -/
def shownIn (quote : Char) (s : List Char) : List Char :=
  quote :: s.flatMap (shownChar quote) ++ [quote]

/-- A text as a message shows it. -/
def shown (s : String) : String := String.ofList (shownIn '\x22' s.toList)

/-- A list of texts as a message shows it. -/
def shownList (ss : List String) : String := "[" ++ ", ".intercalate (ss.map shown) ++ "]"

end Provenance.Text
