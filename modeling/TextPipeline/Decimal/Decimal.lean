import TextPipeline.Decimal.Double

/-!
# Decimal fractions

A decimal fraction is a natural number scaled by a power of ten.  Every one of them is near some
number of the binary64 format, unless it is too large, and every number of the format is a decimal
fraction.  The shortest decimal fraction that is read back as a given number has the fewest
digits, and among those with as few digits it is the nearest to the number.
-/

namespace TextPipeline

/-- The fraction `digits * 10 ^ exponent`. -/
structure Decimal where
  digits : Nat
  exponent : Int
deriving DecidableEq, Repr

/-- Which of two equally near decimal fractions is taken. -/
inductive Tie where
  | even
  | away
deriving DecidableEq, Repr

namespace Decimal

/-- The number of the binary64 format nearest to a decimal fraction, or nothing if the fraction is
too large.  An exponent that leaves no doubt about the answer is not raised to a power. -/
def toDouble (negative : Bool) (x : Decimal) : Option Double :=
  if x.digits = 0 then some (Double.zero negative)
  else match x.exponent with
    | .ofNat n =>
      if 400 < n then none
      else Double.nearest negative (x.digits * Nat.pow 10 n) 1
    | .negSucc n =>
      if 400 + x.digits.log2 < n then some (Double.zero negative)
      else Double.nearest negative x.digits (Nat.pow 10 (n + 1))

/-- The same fraction without zeros at the end of its digits. -/
def trimZeros (x : Decimal) : Decimal :=
  if x.digits = 0 then ⟨0, 0⟩
  else if x.digits % 10 = 0 then trimZeros ⟨x.digits / 10, x.exponent + 1⟩
  else x
termination_by x.digits
decreasing_by omega

/-- The digits of the fraction, the first one not zero unless the fraction is zero. -/
def digitList (x : Decimal) : List Char :=
  Nat.toDigits 10 x.digits

/-- The two fractions of `count` digits around `x`, the one to be preferred first, or `x` itself
if it has no more digits than that. -/
def neighbours (x : Decimal) (tie : Tie) (count : Nat) : List Decimal :=
  let dropped := x.digitList.length - count
  let unit := Nat.pow 10 dropped
  let below := x.digits / unit
  let rest := x.digits % unit
  let lower : Decimal := ⟨below, x.exponent + dropped⟩
  let upper : Decimal := ⟨below + 1, x.exponent + dropped⟩
  let lowerFirst := 2 * rest < unit ||
    (2 * rest == unit && match tie with
      | .even => below % 2 == 0
      | .away => false)
  if lowerFirst then [lower, upper] else [upper, lower]

end Decimal

namespace Double

/-- The number as a decimal fraction, exactly and without its sign. -/
def exact (d : Double) : Decimal :=
  if 1074 ≤ d.exponent then ⟨d.mantissa * Nat.pow 2 (d.exponent - 1074), 0⟩
  else ⟨d.mantissa * Nat.pow 5 (1074 - d.exponent), (d.exponent : Int) - 1074⟩

/-- The shortest decimal fraction that is read back as the number.  Seventeen digits always
suffice. -/
def shortest (tie : Tie) (d : Double) : Decimal :=
  let readsBack (x : Decimal) : Bool := x.toDouble d.negative = some d
  let candidates := (List.range 17).flatMap fun n =>
    (d.exact.neighbours tie (n + 1)).map Decimal.trimZeros
  (candidates.find? readsBack).getD d.exact.trimZeros

/-- The shortest fraction is one that is read back, or the number itself. -/
theorem shortest_readsBack (tie : Tie) (d : Double) :
  (d.shortest tie).toDouble d.negative = some d ∨ d.shortest tie = d.exact.trimZeros
  := by
  simp only [shortest]
  cases h : List.find? _ _ with
  | none => exact .inr rfl
  | some x => exact .inl (by simpa using List.find?_some h)

end Double

end TextPipeline
