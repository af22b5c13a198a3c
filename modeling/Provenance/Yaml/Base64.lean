/-!
Reading base64, in which each four characters stand for three bytes. Equals signs fill up a group that
stands for fewer, and the bits that such a group has too many do not count.
-/

namespace Provenance.Yaml.Base64

/-- The six bits of a character. -/
def bits? (c : Char) : Option Nat :=
  if 'A' ≤ c ∧ c ≤ 'Z' then some (c.toNat - 'A'.toNat)
  else if 'a' ≤ c ∧ c ≤ 'z' then some (c.toNat - 'a'.toNat + 26)
  else if c.isDigit then some (c.toNat - '0'.toNat + 52)
  else if c = '+' then some 62
  else if c = '/' then some 63
  else none

/-- The bytes of a group of four. -/
def group? : Char → Char → Char → Char → Option (List UInt8)
  | a, b, '=', '=' => do
    let n := 64 * (← bits? a) + (← bits? b)
    return [UInt8.ofNat (n / 16)]
  | a, b, c, '=' => do
    let n := 4096 * (← bits? a) + 64 * (← bits? b) + (← bits? c)
    return [UInt8.ofNat (n / 1024), UInt8.ofNat (n / 4 % 256)]
  | a, b, c, d => do
    let n := 262144 * (← bits? a) + 4096 * (← bits? b) + 64 * (← bits? c) + (← bits? d)
    return [UInt8.ofNat (n / 65536), UInt8.ofNat (n / 256 % 256), UInt8.ofNat (n % 256)]

/-- The bytes of a text of whole groups. -/
def bytes? : List Char → Option (List UInt8)
  | [] => some []
  | a :: b :: c :: d :: r => return (← group? a b c d) ++ (← bytes? r)
  | _ => none

/-- The blanks that may stand between the characters of a group. -/
def isBlank (c : Char) : Bool := c.isWhitespace || c = '\x0c'

/-- The text that a base64 text stands for, apart from blanks in it. -/
def text? (s : String) : Option String := do
  let bytes ← bytes? (s.toList.filter (!isBlank ·))
  String.fromUTF8? (ByteArray.mk bytes.toArray)

end Provenance.Yaml.Base64
