/-!
The shortest decimal of a float: the fewest digits that read back as the same float, and of those the
nearest to it. A float is `m · 2 ^ q`; the reals that round to it form an interval around it, whose
ends belong to it when `m` is even. The decimal is the multiple of `10 ^ k` next to the float, for the
largest `k` for which one lies in the interval. All arithmetic is exact.
-/

namespace Provenance.Decimal

/-- A positive float, `mantissa · 2 ^ exponent`. -/
structure Binary where
  mantissa : Nat
  exponent : Int
  /-- Whether the next float below is only half as far away as the next one above. -/
  narrowBelow : Bool

/-- The magnitude of a finite float. -/
def Binary.ofFloat (x : Float) : Binary :=
  let bits := x.toBits.toNat % Nat.pow 2 63
  let fraction := bits % Nat.pow 2 52
  match bits / Nat.pow 2 52 with
  | 0 => ⟨fraction, -1074, false⟩
  | e => ⟨Nat.pow 2 52 + fraction, (e : Int) - 1075, fraction = 0 && 1 < e⟩

/-- A positive decimal, `digits · 10 ^ exponent`. -/
structure Scaled where
  digits : Nat
  exponent : Int
  deriving DecidableEq

/-- The multiple of `10 ^ k` nearest to a float among those in its interval. A tie goes to the even
multiple. -/
def Binary.onGrid? (b : Binary) (k : Int) : Option Nat :=
  let scale := Nat.pow 2 (b.exponent - 2).toNat * Nat.pow 10 (-k).toNat
  let unit := Nat.pow 2 (2 - b.exponent).toNat * Nat.pow 10 k.toNat
  let value := 4 * b.mantissa * scale
  let low := value - (if b.narrowBelow then 1 else 2) * scale
  let high := value + 2 * scale
  let inside (n : Nat) :=
    if b.mantissa % 2 = 0 then low ≤ n * unit && n * unit ≤ high
    else low < n * unit && n * unit < high
  let below := value / unit
  let above := below + 1
  match inside below && 0 < below, inside above with
  | true, true =>
    let down := value - below * unit
    let up := above * unit - value
    some (if down < up || down = up && below % 2 = 0 then below else above)
  | true, false => some below
  | false, true => some above
  | false, false => none

/-- Tries the grids `10 ^ (n - 325)` downwards. -/
def Binary.search (b : Binary) : Nat → Scaled
  | 0 => ⟨0, 0⟩
  | n + 1 =>
    match b.onGrid? (n - 324 : Int) with
    | some d => ⟨d, n - 324⟩
    | none => b.search n

/-- The shortest decimal of a positive finite float. -/
def Binary.shortest (b : Binary) : Scaled := b.search 634

/-- A decimal in positional notation, or with an exponent when its leading digit stands at or above
the sixteenth place before the point, or below the fifth place after it. -/
def Scaled.text (d : Scaled) : List Char :=
  let ds := Nat.toDigits 10 d.digits
  let lead : Int := d.exponent + ds.length - 1
  let zeros (n : Int) := List.replicate n.toNat '0'
  if -5 ≤ lead ∧ lead < 16 then
    if 0 ≤ d.exponent then ds ++ zeros d.exponent ++ ['.', '0']
    else if 0 ≤ lead then
      ds.take (lead + 1).toNat ++ '.' :: ds.drop (lead + 1).toNat
    else '0' :: '.' :: zeros (-lead - 1) ++ ds
  else
    let fraction := if ds.length = 1 then [] else '.' :: ds.drop 1
    let sign := if lead < 0 then '-' else '+'
    ds.take 1 ++ fraction ++ 'e' :: sign :: Nat.toDigits 10 lead.natAbs

/-- The text of a finite float. -/
def text (x : Float) : String :=
  let b := Binary.ofFloat x
  let sign := if x.toBits.toNat < Nat.pow 2 63 then [] else ['-']
  String.ofList (sign ++ if b.mantissa = 0 then ['0', '.', '0'] else b.shortest.text)

end Provenance.Decimal
