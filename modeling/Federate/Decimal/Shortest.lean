/-
The shortest decimal that reads back as a given double.

A finite double is `m * 2 ^ q`. The reals that round to it form an interval,
ends included exactly when `m` is even; of the decimals `d * 10 ^ k` in that
interval the one with the greatest `k` has the fewest digits, and where two
neighbours share it the nearer is taken, the upper one on a tie. All arithmetic
is exact, on natural numbers.
-/
namespace Federate.Decimal

/-- A positive finite double as a whole number of quarter units: the value is
`4 * mantissa` of them, a unit being `2 ^ exponent`. -/
structure Binary where
  mantissa : Nat
  exponent : Int
  /-- Whether the gap below is half of the gap above. -/
  narrowBelow : Bool
  deriving DecidableEq, Repr

/-- A decimal `digits * 10 ^ exponent`. -/
structure Positional where
  digits : Nat
  exponent : Int
  deriving DecidableEq, Repr

/-- The magnitude of a finite double, by its bit pattern. -/
def Binary.ofBits (bits : UInt64) : Binary :=
  let fraction : Nat := bits.toNat % 0x10000000000000
  let biased : Nat := bits.toNat / 0x10000000000000 % 0x800
  if biased = 0 then ⟨fraction, -1074, false⟩
  else ⟨0x10000000000000 + fraction, (biased : Int) - 1075, fraction == 0 && biased != 1⟩

namespace Binary

/-- The factors that bring `c` quarter units and `d * 10 ^ k` to a common scale:
`c * (scales k).1` against `d * (scales k).2`. -/
def scales (b : Binary) (k : Int) : Nat × Nat :=
  let e := b.exponent - 2
  (Nat.pow 2 e.toNat * Nat.pow 10 (-k).toNat, Nat.pow 2 (-e).toNat * Nat.pow 10 k.toNat)

/-- Does `d * 10 ^ k` round to the value? -/
def covers (b : Binary) (d : Nat) (k : Int) : Bool :=
  let (a, s) := b.scales k
  let low := (4 * b.mantissa - if b.narrowBelow then 1 else 2) * a
  let high := (4 * b.mantissa + 2) * a
  if b.mantissa % 2 = 0 then low ≤ d * s && d * s ≤ high
  else low < d * s && d * s < high

/-- The nearest point to the value on the grid of step `10 ^ k`, if it rounds to the value. -/
def onGrid (b : Binary) (k : Int) : Option Nat :=
  let (a, s) := b.scales k
  let exact := 4 * b.mantissa * a
  let down := exact / s
  let up := down + 1
  match b.covers down k, b.covers up k with
  | true, true => some (if exact - down * s < up * s - exact then down else up)
  | true, false => some down
  | false, true => some up
  | false, false => none

/-- The first grid with a hit, from `10 ^ k` down, trying at most `fuel` grids. -/
def search (b : Binary) : (fuel : Nat) → (k : Int) → Positional
  | 0, k => ⟨0, k⟩
  | fuel + 1, k =>
    match b.onGrid k with
    | some d => ⟨d, k⟩
    | none => search b fuel (k - 1)

/-- The shortest decimal that rounds to the value. The search starts above the value
(`30103 / 100000` exceeds the logarithm of two) and seventeen digits always suffice. -/
def shortest (b : Binary) : Positional :=
  let magnitude := (b.mantissa.log2 + 1 : Int) + b.exponent
  let start :=
    if magnitude ≥ 0 then magnitude * 30103 / 100000 + 1 else magnitude * 30102 / 100000 + 1
  b.search 24 start

end Binary

/-- Written without an exponent: zeros fill up to the point, and a point stands
only before a fraction. -/
def Positional.text (p : Positional) : String :=
  let ds := Nat.toDigits 10 p.digits
  if 0 ≤ p.exponent then String.ofList (ds ++ List.replicate p.exponent.toNat '0')
  else
    let places := (-p.exponent).toNat
    if places < ds.length then
      String.ofList (ds.take (ds.length - places) ++ '.' :: ds.drop (ds.length - places))
    else String.ofList ('0' :: '.' :: List.replicate (places - ds.length) '0' ++ ds)

/-- The text of any double: the shortest decimal, in full, the sign of zero shown. -/
def text (bits : UInt64) : String :=
  let negative := bits.toNat / 0x8000000000000000 = 1
  let magnitude := bits.toNat % 0x8000000000000000
  if magnitude > 0x7FF0000000000000 then "NaN"
  else
    let body :=
      if magnitude = 0x7FF0000000000000 then "inf"
      else if magnitude = 0 then "0"
      else (Binary.ofBits (UInt64.ofNat magnitude)).shortest.text
    if negative then "-" ++ body else body

end Federate.Decimal
