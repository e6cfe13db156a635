/-
# DbInventory.Binary64.Basic -- finite binary64 numbers in exact arithmetic

A finite binary64 number is `mantissa * 2 ^ exponent` with a sign, where the mantissa has
at most 53 bits and the exponent is at least -1074. Products and quotients are formed
exactly and rounded once, to the nearest number and on a tie to the even mantissa; a result
above the largest finite number has no value. Nothing here depends on machine floats, so
numbers can be compared and computed inside proofs.
-/

namespace DbInventory

/-- A finite binary64 number, `± mantissa * 2 ^ exponent`. -/
structure Binary64 where
  negative : Bool
  mantissa : Nat
  exponent : Int
  deriving DecidableEq, Repr, Inhabited

namespace Binary64

/-- The exponent of subnormal numbers, below which no exponent goes. -/
def minExponent : Int := -1074

/-- The exponent above which no 53-bit mantissa is finite. -/
def maxExponent : Int := 971

/-- The highest bit of a 53-bit mantissa, `2 ^ 52`. -/
def hiddenBit : Nat := 4503599627370496

def zero : Binary64 := ⟨false, 0, minExponent⟩

def isZero (x : Binary64) : Bool := x.mantissa == 0

/-! ## Rounding -/

/-- The integer nearest to `num / den`; of two the even one. -/
def nearestEven (num den : Nat) : Nat :=
  let q := num / den
  let r := num % den
  if 2 * r < den then q
  else if den < 2 * r then q + 1
  else q + q % 2

/-- The mantissa of `num / den` at an exponent. -/
def mantissaAt (num den : Nat) (exponent : Int) : Nat :=
  if 0 ≤ exponent then nearestEven num (den * Nat.pow 2 exponent.toNat)
  else nearestEven (num * Nat.pow 2 (-exponent).toNat) den

/-- The exponent at which the integer part of `num / den` has 53 bits, but never below the
subnormal one. -/
def exponentOf (num den : Nat) : Int :=
  let guess : Int := num.log2 - den.log2 - 52
  let bits :=
    if 0 ≤ guess then num / (den * Nat.pow 2 guess.toNat)
    else num * Nat.pow 2 (-guess).toNat / den
  max minExponent (if bits < hiddenBit then guess - 1 else guess)

/-- The binary64 number nearest to `num / den` with the given sign; none when the result is
not finite. -/
def round (negative : Bool) (num den : Nat) : Option Binary64 :=
  if num = 0 then some { zero with negative }
  else
    let exponent := exponentOf num den
    let mantissa := mantissaAt num den exponent
    let (mantissa, exponent) :=
      if mantissa = 2 * hiddenBit then (hiddenBit, exponent + 1) else (mantissa, exponent)
    if maxExponent < exponent then none else some { negative, mantissa, exponent }

/-! ## Arithmetic -/

def ofNat (n : Nat) : Option Binary64 := round false n 1

def mul (x y : Binary64) : Option Binary64 :=
  let exponent := x.exponent + y.exponent
  let mantissa := x.mantissa * y.mantissa
  let negative := x.negative != y.negative
  if 0 ≤ exponent then round negative (mantissa * Nat.pow 2 exponent.toNat) 1
  else round negative mantissa (Nat.pow 2 (-exponent).toNat)

/-- The quotient; the divisor is not zero. -/
def div (x y : Binary64) : Option Binary64 :=
  let exponent := x.exponent - y.exponent
  let negative := x.negative != y.negative
  if 0 ≤ exponent then round negative (x.mantissa * Nat.pow 2 exponent.toNat) y.mantissa
  else round negative x.mantissa (y.mantissa * Nat.pow 2 (-exponent).toNat)

/-- The largest power of ten that is a finite number. -/
def maxPowerOfTen : Nat := 308

/-- The number nearest to a power of ten. -/
def powerOfTen (n : Nat) : Binary64 := (ofNat (Nat.pow 10 n)).getD zero

/-- Divides by ten `n` times, in steps of at most `maxPowerOfTen` places, each rounded. -/
def shiftDown (x : Binary64) (n : Nat) : Binary64 :=
  if n ≤ maxPowerOfTen then (x.div (powerOfTen n)).getD zero
  else if x.isZero then x
  else shiftDown ((x.div (powerOfTen maxPowerOfTen)).getD zero) (n - maxPowerOfTen)
termination_by n
decreasing_by simp_all [maxPowerOfTen]; omega

/-- `digits * 10 ^ exponent`, by rounding the digits and then each scaling step; none when
the result is not finite. -/
def ofDecimal (negative : Bool) (digits : Nat) (exponent : Int) : Option Binary64 :=
  ((ofNat digits).bind fun x =>
    if exponent < 0 then some (x.shiftDown (-exponent).toNat)
    else if exponent ≤ maxPowerOfTen then x.mul (powerOfTen exponent.toNat)
    else if x.isZero then some x
    else none).map fun x => { x with negative }

end Binary64

end DbInventory
