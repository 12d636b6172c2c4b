import TextPipeline.Decimal.Decimal

/-!
# Decimal fractions in steps

A decimal fraction can be brought to the binary64 format by arithmetic within the format.  Its
digits are rounded to a number of the format, and this number is multiplied or divided by a power
of ten, which has been rounded too.  The result is rounded once more, so that it need not be the
number nearest to the fraction, though it is near to it.
-/

namespace TextPipeline

namespace Double

/-- The number as a multiple of the least one, without its sign. -/
def units (d : Double) : Nat :=
  d.mantissa * Nat.pow 2 d.exponent

/-- Whether the number is a zero of either sign. -/
def isZero (d : Double) : Bool :=
  d.mantissa = 0

/-- The rounded product with a number, or nothing if it is too large.  The sign stays. -/
def times (d factor : Double) : Option Double :=
  nearest d.negative (d.units * factor.units) (Nat.pow 2 1074 * Nat.pow 2 1074)

/-- The rounded quotient by a number, or nothing if it is too large.  The sign stays. -/
def dividedBy (d divisor : Double) : Option Double :=
  nearest d.negative d.units divisor.units

/-- The exponent of the greatest power of ten in the format. -/
def maxPower : Nat := 308

/-- A power of ten, rounded, or nothing if it is too large. -/
def powerOfTen (n : Nat) : Option Double :=
  nearest false (Nat.pow 10 n) 1

/-- The number multiplied by a power of ten, or nothing if the product is too large. -/
def raise (d : Double) (n : Nat) : Option Double :=
  if n ≤ maxPower then (powerOfTen n).bind d.times
  else if d.isZero then some d
  else none

/-- The number divided by a power of ten.  While the power is too large for the format, the number
is divided by the greatest one, until it is zero. -/
def lower (d : Double) (n : Nat) : Option Double :=
  if n ≤ maxPower then (powerOfTen n).bind d.dividedBy
  else if d.isZero then some d
  else ((powerOfTen maxPower).bind d.dividedBy).bind fun quotient => quotient.lower (n - maxPower)
termination_by n
decreasing_by
  simp only [maxPower] at *
  omega

end Double

/-- The number that comes out if the digits of a decimal fraction are rounded first and scaled by
the power of ten then, or nothing if it is too large. -/
def Decimal.stepwise (negative : Bool) (x : Decimal) : Option Double :=
  (Double.nearest negative x.digits 1).bind fun d => match x.exponent with
    | .ofNat n => d.raise n
    | .negSucc n => d.lower (n + 1)

end TextPipeline
