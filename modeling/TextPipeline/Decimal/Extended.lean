import TextPipeline.Decimal.Style

/-!
# Numbers with infinities

The numbers of the binary64 format together with the two infinities and the value that is no
number.
-/

namespace TextPipeline

/-- A number of the binary64 format, an infinity, or no number. -/
inductive Extended where
  | nan
  | infinite (negative : Bool)
  | finite (value : Double)
deriving DecidableEq

/-- The number nearest to a decimal fraction, an infinity if the fraction is too large. -/
def Extended.ofDecimal (negative : Bool) (x : Decimal) : Extended :=
  match x.toDouble negative with
  | some d => .finite d
  | none => .infinite negative

/-- The text of a number in messages about settings has no exponent, and nothing marks a whole
number. -/
def plainStyle : NumberStyle where
  tie := .away
  leastPlain := none
  greatestPlain := none
  wholeMark := ""
  exponentMark := ""

/-- The text of a number in messages about settings. -/
def Extended.text : Extended → String
  | .nan => "NaN"
  | .infinite negative => if negative then "-inf" else "inf"
  | .finite d => String.ofList (plainStyle.text d)

end TextPipeline
