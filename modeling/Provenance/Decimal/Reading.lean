/-!
Reading decimals: digits with an optional point and an optional exponent, at least one digit in the
number and in the exponent. The value is the float nearest to the decimal.
-/

namespace Provenance.Decimal

/-- The digits that a text starts with, and what follows them. -/
def spanDigits (s : List Char) : List Char × List Char := s.span Char.isDigit

/-- The value of some digits. -/
def value (ds : List Char) : Nat := ds.foldl (fun n c => 10 * n + (c.toNat - '0'.toNat)) 0

/-- The float nearest to `m · 10 ^ e`. Decimals far outside the range of floats are settled by their
size alone. -/
def nearest (m : Nat) (e : Int) : Float :=
  let size : Int := (Nat.toDigits 10 m).length + e
  if m = 0 || size < -400 then 0
  else if 400 < size then 1 / 0
  else if e < 0 then Float.ofScientific m true e.natAbs
  else Float.ofScientific m false e.natAbs

/-- A sign, if there is one, and what follows it. -/
def sign : List Char → Bool × List Char
  | '-' :: r => (true, r)
  | '+' :: r => (false, r)
  | r => (false, r)

/-- Reads an exponent, which may be absent, up to the end of the text. -/
def exponent? : List Char → Option Int
  | [] => some 0
  | c :: r =>
    if c = 'e' || c = 'E' then
      let (negative, r) := sign r
      match spanDigits r with
      | ([], _) => none
      | (ds, []) => some (if negative then -(value ds : Int) else value ds)
      | _ => none
    else none

/-- Reads an unsigned decimal up to the end of the text. -/
def magnitude? (s : List Char) : Option Float :=
  let (whole, r) := spanDigits s
  let (fraction, r) := match r with
    | '.' :: r => spanDigits r
    | r => ([], r)
  if whole = [] && fraction = [] then none
  else (exponent? r).map fun e => nearest (value (whole ++ fraction)) (e - fraction.length)

/-- Reads a decimal with an optional sign. -/
def ofText? (s : List Char) : Option Float :=
  let (negative, r) := sign s
  (magnitude? r).map fun x => if negative then -x else x

end Provenance.Decimal
