import TextPipeline.Decimal.Decimal

/-!
# Styles of numbers

How the digits of a number become text is told by a style: up to which size they stand around a
decimal point, what marks a whole number, and how an exponent is written beyond that.
-/

namespace TextPipeline

/-- The decisions about the text of a number.  The size of a number is the power of ten of its
first digit. -/
structure NumberStyle where
  tie : Tie
  /-- The least size that is written without an exponent. -/
  leastPlain : Option Int
  /-- The greatest size that is written without an exponent. -/
  greatestPlain : Option Int
  /-- What follows a whole number that is written without an exponent. -/
  wholeMark : String
  /-- What stands between the digits and an exponent that is not negative. -/
  exponentMark : String

namespace NumberStyle

/-- Whether a size is written without an exponent. -/
def isPlain (style : NumberStyle) (size : Int) : Bool :=
  style.leastPlain.all (· ≤ size) && style.greatestPlain.all (size ≤ ·)

/-- The text of a decimal fraction without zeros at its end. -/
def decimalText (style : NumberStyle) (x : Decimal) : List Char :=
  let digits := x.digitList
  let size : Int := x.exponent + digits.length - 1
  if style.isPlain size then
    if 0 ≤ x.exponent then
      digits ++ List.replicate x.exponent.toNat '0' ++ style.wholeMark.toList
    else if 0 ≤ size then
      digits.take (size.toNat + 1) ++ '.' :: digits.drop (size.toNat + 1)
    else
      '0' :: '.' :: List.replicate (-size - 1).toNat '0' ++ digits
  else
    let tail := digits.drop 1
    let point := if tail.isEmpty then [] else '.' :: tail
    let exponent :=
      if 0 ≤ size then style.exponentMark.toList ++ Nat.toDigits 10 size.toNat
      else 'e' :: '-' :: Nat.toDigits 10 (-size).toNat
    digits.take 1 ++ point ++ exponent

/-- The text of a number, with the sign of a zero too. -/
def text (style : NumberStyle) (d : Double) : List Char :=
  let digits := style.decimalText (d.shortest style.tie)
  if d.negative then '-' :: digits else digits

end NumberStyle

end TextPipeline
