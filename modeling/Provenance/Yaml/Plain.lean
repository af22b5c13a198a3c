import Provenance.Decimal.Reading
import Provenance.Document
import Provenance.Text.Blank

/-!
The value of a plain scalar: a truth value, an integer that fits 64 bits, or a float, whichever the
text can be read as first, and otherwise the text itself. Infinities and values that are no numbers
stay texts, in a spelling of their own.
-/

namespace Provenance.Yaml.Plain

/-- The truth value of a word, in any case. -/
def bool? (s : List Char) : Option Bool :=
  let word := String.ofList (s.map Char.toLower)
  if ["true", "yes", "y", "on"].contains word then some true
  else if ["false", "no", "n", "off"].contains word then some false
  else none

/-- The value of a digit in a base. -/
def digit? (base : Nat) (c : Char) : Option Nat :=
  let n :=
    if c.isDigit then c.toNat - '0'.toNat
    else if 'a' ≤ c ∧ c ≤ 'f' then c.toNat - 'a'.toNat + 10
    else if 'A' ≤ c ∧ c ≤ 'F' then c.toNat - 'A'.toNat + 10
    else base
  if n < base then some n else none

/-- The value of some digits in a base, at least one. Underscores between them do not count. -/
def digits? (base : Nat) (s : List Char) : Option Nat :=
  let ds := s.filter (· ≠ '_')
  if ds = [] then none else ds.foldlM (fun n c => do return base * n + (← digit? base c)) 0

/-- The value of digits after a sign. -/
def magnitude? : List Char → Option Nat
  | '0' :: c :: r =>
    match c.toLower with
    | 'x' => digits? 16 r
    | 'o' => digits? 8 r
    | 'b' => digits? 2 r
    | _ => digits? 10 ('0' :: c :: r)
  | ds => digits? 10 ds

/-- The integer of a text. -/
def int? (s : List Char) : Option Int :=
  let (negative, r) := Decimal.sign s
  (magnitude? r).bind fun n =>
    if negative then if n ≤ UInt64.size / 2 then some (-(n : Int)) else none
    else if n < UInt64.size then some n else none

/-- What an infinite value or one that is no number is called. -/
def named? (s : List Char) : Option String :=
  let (negative, r) := Decimal.sign s
  let word := String.ofList (r.map Char.toLower)
  if [".inf", "inf", "infinity"].contains word then some (if negative then "-.inf" else ".inf")
  else if [".nan", "nan"].contains word then some ".nan"
  else none

/-- The value of a plain scalar. Blanks around it count for a text only. -/
def resolve (text : String) : Document :=
  let s := Text.trim text.toList
  match bool? s, int? s, named? s, Decimal.ofText? s with
  | some b, _, _, _ => .bool b
  | none, some n, _, _ => .int n
  | none, none, some name, _ => .text name
  | none, none, none, some x =>
    if x.isFinite then .float x else .text (if x < 0 then "-.inf" else ".inf")
  | none, none, none, none => .text text

end Provenance.Yaml.Plain
