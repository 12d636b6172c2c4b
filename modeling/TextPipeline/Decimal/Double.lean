/-!
# Numbers of the binary64 format

A finite number of the binary64 format is a sign, a mantissa of at most 53 bits and an exponent.
Each number has exactly one such form, since the mantissa fills its 53 bits unless the exponent is
the least.  A quotient of natural numbers is rounded to the nearest of these numbers, and of two
equally near to the one with the even mantissa.
-/

namespace TextPipeline

/-- The number `mantissa * 2 ^ (exponent - 1074)` with a sign. -/
structure Double where
  negative : Bool
  mantissa : Nat
  exponent : Nat
  canonical : mantissa < 0x20000000000000 ∧ exponent ≤ 2045 ∧
    (exponent = 0 ∨ 0x10000000000000 ≤ mantissa)
deriving DecidableEq

/-- The quotient rounded to the nearest whole number, and a half to the even one. -/
def roundHalfEven (num den : Nat) : Nat :=
  let whole := num / den
  let rest := num % den
  if 2 * rest < den then whole
  else if den < 2 * rest then whole + 1
  else whole + whole % 2

namespace Double

/-- The zero of the given sign. -/
def zero (negative : Bool) : Double :=
  ⟨negative, 0, 0, by decide⟩

instance : Inhabited Double := ⟨zero false⟩

/-- The number with a mantissa that rounding may have carried to 54 bits, or nothing if the number
is too large for the format. -/
def ofParts (negative : Bool) (mantissa exponent : Nat) : Option Double :=
  if h : mantissa < 0x20000000000000 ∧ exponent ≤ 2045 ∧
      (exponent = 0 ∨ 0x10000000000000 ≤ mantissa) then
    some ⟨negative, mantissa, exponent, h⟩
  else if h : mantissa = 0x20000000000000 ∧ exponent < 2045 then
    some ⟨negative, 0x10000000000000, exponent + 1, by decide, by omega, by omega⟩
  else none

/-- The number of the format nearest to the quotient of two natural numbers. -/
def nearest (negative : Bool) (num den : Nat) : Option Double :=
  let scaled := num * Nat.pow 2 1074
  let whole := scaled / den
  let exponent := if whole < 0x20000000000000 then 0 else whole.log2 - 52
  ofParts negative (roundHalfEven scaled (den * Nat.pow 2 exponent)) exponent

/-- A number of the format in its own form is given back as it is. -/
theorem ofParts_self (d : Double) :
  ofParts d.negative d.mantissa d.exponent = some d
  := by
  rw [ofParts, dif_pos d.canonical]

/-- The quotient of the multiple of a number by that number is rounded to the multiplier. -/
theorem roundHalfEven_mul_right (n : Nat) {den : Nat} (h : 0 < den) :
  roundHalfEven (n * den) den = n
  := by
  simp [roundHalfEven, Nat.mul_div_cancel _ h, h]

end Double

end TextPipeline
