/-
# DbInventory.Binary64.Shortest -- the shortest decimal that reads back

Every real number strictly between two neighbouring midpoints rounds to the same binary64
number, and the midpoints themselves do when the mantissa is even. `shortest` is the decimal
with the fewest digits in that interval, and of those the nearest to the number.
`Layout` says from which magnitude on a decimal is written with an exponent.
-/

import DbInventory.Binary64.Basic

namespace DbInventory

namespace Binary64

/-! ## Digits -/

/-- The decimal `digits * 10 ^ exponent`. -/
structure Decimal where
  digits : Nat
  exponent : Int
  deriving DecidableEq, Repr

/-- A quarter of the last place of a number, as a fraction. All points that matter to
shortest digits (the number and its two midpoints) are whole multiples of it. -/
structure Quarter where
  num : Nat
  den : Nat

def quarter (x : Binary64) : Quarter :=
  let e := x.exponent - 2
  if 0 ≤ e then ⟨Nat.pow 2 e.toNat, 1⟩ else ⟨1, Nat.pow 2 (-e).toNat⟩

/-- The lower midpoint in quarters; the gap below a power of two is half as wide. -/
def lowerQuarters (x : Binary64) : Nat :=
  if x.mantissa = hiddenBit ∧ minExponent < x.exponent then 4 * x.mantissa - 1
  else 4 * x.mantissa - 2

def upperQuarters (x : Binary64) : Nat := 4 * x.mantissa + 2

/-- Both sides of the comparison of `d` with `n` quarters of `x`, without fractions. -/
def compareSides (x : Binary64) (d : Decimal) (n : Nat) : Nat × Nat :=
  let q := x.quarter
  if 0 ≤ d.exponent then (d.digits * Nat.pow 10 d.exponent.toNat * q.den, n * q.num)
  else (d.digits * q.den, n * q.num * Nat.pow 10 (-d.exponent).toNat)

/-- Whether a decimal reads back as the number: it lies between the midpoints, which count
when the mantissa is even. -/
def readsBack (x : Binary64) (d : Decimal) : Bool :=
  let (dLow, low) := x.compareSides d x.lowerQuarters
  let (dHigh, high) := x.compareSides d x.upperQuarters
  if x.mantissa % 2 = 0 then low ≤ dLow && dHigh ≤ high else low < dLow && dHigh < high

/-- Whether the number is below a power of ten. -/
def belowPowerOfTen (x : Binary64) (p : Int) : Bool :=
  let (d, v) := x.compareSides ⟨1, p⟩ (4 * x.mantissa)
  v < d

/-- The least power of ten above the number. Three hundredths of a decimal place a bit
bracket it, so four neighbouring powers are tried. -/
def powerAbove (x : Binary64) : Int :=
  let guess := (x.mantissa.log2 + x.exponent) * 30103 / 100000
  ([guess - 1, guess, guess + 1, guess + 2].find? x.belowPowerOfTen).getD (guess + 3)

/-- The digits of the grid point of `10 ^ k` at or below the number. -/
def gridFloor (x : Binary64) (k : Int) : Nat :=
  let q := x.quarter
  let v := 4 * x.mantissa * q.num
  if 0 ≤ k then v / (q.den * Nat.pow 10 k.toNat) else v * Nat.pow 10 (-k).toNat / q.den

/-- Of a grid point and the next one, whether the first is nearer to the number; a tie goes
to the even digits. -/
def lowerIsNearer (x : Binary64) (d : Nat) (k : Int) : Bool :=
  let (twice, v) := x.compareSides ⟨2 * d + 1, k⟩ (8 * x.mantissa)
  v < twice || (v == twice && d % 2 == 0)

/-- The nearest grid point of `10 ^ k` that reads back, if any does. -/
def onGrid (x : Binary64) (k : Int) : Option Decimal :=
  let d := x.gridFloor k
  match x.readsBack ⟨d, k⟩, x.readsBack ⟨d + 1, k⟩ with
  | true, true => some ⟨if x.lowerIsNearer d k then d else d + 1, k⟩
  | true, false => some ⟨d, k⟩
  | false, true => some ⟨d + 1, k⟩
  | false, false => none

/-- Seventeen digits always suffice. -/
def maxDigits : Nat := 17

/-- The shortest decimal that reads back as the number, without its sign. -/
def shortest (x : Binary64) : Decimal :=
  let p := x.powerAbove
  ((List.range maxDigits).findSome? fun n => x.onGrid (p - (n + 1 : Nat))).getD ⟨0, 0⟩

/-- Moves zeros at the end of the digits into the exponent; there are at most as many as
digits. -/
def Decimal.trim (d : Decimal) : Nat → Decimal
  | 0 => d
  | n + 1 =>
    if d.digits % 10 = 0 ∧ d.digits ≠ 0 then trim ⟨d.digits / 10, d.exponent + 1⟩ n else d

/-! ## Text -/

/-- The decimal exponents of the first digit that are written without an exponent. -/
structure Layout where
  lowest : Int
  highest : Int

/-- The text of a decimal that is not zero. Positional text has at least one digit on each
side of the point; an exponent has its sign and no padding. -/
def Layout.text (layout : Layout) (d : Decimal) : String :=
  let ds := Nat.toDigits 10 d.digits
  let first : Int := d.exponent + ds.length - 1
  if layout.lowest ≤ first ∧ first ≤ layout.highest then
    if 0 ≤ d.exponent then
      String.ofList (ds ++ List.replicate d.exponent.toNat '0' ++ ['.', '0'])
    else if 0 ≤ first then
      String.ofList (ds.take (first.toNat + 1) ++ '.' :: ds.drop (first.toNat + 1))
    else
      String.ofList (['0', '.'] ++ List.replicate ((-first).toNat - 1) '0' ++ ds)
  else
    let fraction := if ds.length ≤ 1 then [] else '.' :: ds.drop 1
    let sign := if first < 0 then '-' else '+'
    String.ofList (ds.take 1 ++ fraction ++ 'e' :: sign :: Nat.toDigits 10 first.natAbs)

/-- The shortest text of a number in a layout. -/
def text (layout : Layout) (x : Binary64) : String :=
  let magnitude :=
    if x.isZero then "0.0" else layout.text (x.shortest.trim maxDigits)
  if x.negative then "-" ++ magnitude else magnitude

end Binary64

end DbInventory
