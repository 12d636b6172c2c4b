import TextPipeline.Decimal.Stepwise
import TextPipeline.Decimal.Style

/-!
# JSON numbers

A numeral is an optional minus sign, digits of which the first is no zero unless it is the only
one, an optional fraction and an optional exponent.  Without the last two it stands for a whole
number, which is kept exactly if it fits 64 bits with or without a sign.  Every other numeral
stands for a number of the binary64 format.  For this number as many digits count as fit 64 bits,
and they are rounded before they are scaled, so that the number need not be the nearest one.
-/

namespace TextPipeline

/-- The parts of a numeral. -/
structure Numeral where
  negative : Bool
  whole : List Char
  fraction : Option (List Char)
  exponent : Option Int
deriving Repr

/-- A number is whole and exact, or of the binary64 format. -/
inductive Number where
  | int (value : Int)
  | double (value : Double)
deriving DecidableEq

/-- The value of a list of decimal digits. -/
def digitsValue (digits : List Char) : Nat :=
  digits.foldl (fun n c => 10 * n + (c.toNat - 48)) 0

namespace Numeral

/-- The digits at the front of a text, at least one, and what follows them. -/
def digits (cs : List Char) : Option (List Char × List Char) :=
  if (cs.takeWhile Char.isDigit).isEmpty then none
  else some (cs.takeWhile Char.isDigit, cs.dropWhile Char.isDigit)

/-- The digits before the point: a single zero, or digits that begin with no zero. -/
def wholePart (cs : List Char) : Option (List Char × List Char) :=
  match digits cs with
  | some ('0' :: _ :: _, _) => none
  | found => found

/-- The fraction at the front of a text, if a point begins one. -/
def fractionPart (cs : List Char) : Option (Option (List Char) × List Char) :=
  match cs with
  | '.' :: rest => (digits rest).map fun (ds, after) => (some ds, after)
  | _ => some (none, cs)

/-- The value of an exponent, with the sign that may stand before its digits. -/
def signedExponent (cs : List Char) : Option (Int × List Char) :=
  match cs with
  | '-' :: rest => (digits rest).map fun (ds, after) => (-(digitsValue ds : Int), after)
  | '+' :: rest => (digits rest).map fun (ds, after) => ((digitsValue ds : Int), after)
  | _ => (digits cs).map fun (ds, after) => ((digitsValue ds : Int), after)

/-- The exponent at the front of a text, if its letter begins one. -/
def exponentPart (cs : List Char) : Option (Option Int × List Char) :=
  match cs with
  | c :: rest =>
    if c = 'e' ∨ c = 'E' then (signedExponent rest).map fun (e, after) => (some e, after)
    else some (none, cs)
  | [] => some (none, [])

/-- The numeral without a sign at the front of a text, and what follows it. -/
def unsigned (negative : Bool) (cs : List Char) : Option (Numeral × List Char) := do
  let (whole, cs) ← wholePart cs
  let (fraction, cs) ← fractionPart cs
  let (exponent, cs) ← exponentPart cs
  return (⟨negative, whole, fraction, exponent⟩, cs)

/-- The numeral at the front of a text, and what follows it. -/
def split (cs : List Char) : Option (Numeral × List Char) :=
  match cs with
  | '-' :: rest => unsigned true rest
  | _ => unsigned false cs

/-- The whole number that a numeral stands for, if it is written as one and fits 64 bits.  A
zero with a minus sign is no whole number. -/
def int? (n : Numeral) : Option Int :=
  let value := digitsValue n.whole
  if n.fraction.isSome || n.exponent.isSome then none
  else if n.negative then
    if 0 < value ∧ value ≤ 0x8000000000000000 then some (-value) else none
  else if value < 0x10000000000000000 then some value else none

/-- The number to which digits are appended as long as it fits 64 bits, and the digits that are
left. -/
def appendDigits (n : Nat) : List Char → Nat × List Char
  | [] => (n, [])
  | c :: cs =>
    let next := 10 * n + (c.toNat - 48)
    if next < 0x10000000000000000 then appendDigits next cs else (n, c :: cs)

/-- The numeral as a decimal fraction whose digits fit 64 bits, without its sign.  A digit before
the point that does not fit counts as a zero, and the fraction ends where a digit does not fit. -/
def shortened (n : Numeral) : Decimal :=
  let fraction := n.fraction.getD []
  let (front, skipped) := appendDigits 0 n.whole
  let (digits, ignored) := appendDigits front fraction
  ⟨digits, n.exponent.getD 0 + skipped.length - (fraction.length - ignored.length : Nat)⟩

/-- The number that a numeral stands for, or nothing if it is too large. -/
def value (n : Numeral) : Option Number :=
  match n.int? with
  | some i => some (.int i)
  | none => (n.shortened.stepwise n.negative).map .double

/-- The digits and what follows them make up the text. -/
theorem length_of_digits {cs ds after : List Char} (h : digits cs = some (ds, after)) :
  after.length < cs.length
  := by
  simp only [digits] at h
  split at h
  · simp at h
  · next hne =>
    have hlen := congrArg List.length
      (List.takeWhile_append_dropWhile (p := Char.isDigit) (l := cs))
    simp only [Option.some.injEq, Prod.mk.injEq] at h
    obtain ⟨rfl, rfl⟩ := h
    simp only [List.length_append, List.isEmpty_iff] at hlen hne
    have := List.length_pos_iff.2 hne
    omega

/-- The digits before the point take at least one character. -/
theorem length_of_wholePart {cs ds after : List Char} (h : wholePart cs = some (ds, after)) :
  after.length < cs.length
  := by
  simp only [wholePart] at h
  split at h
  · simp at h
  · exact length_of_digits h

/-- A fraction takes no characters back. -/
theorem length_of_fractionPart {cs after : List Char} {f : Option (List Char)}
    (h : fractionPart cs = some (f, after)) :
  after.length ≤ cs.length
  := by
  simp only [fractionPart] at h
  split at h
  · simp only [Option.map_eq_some_iff, Prod.mk.injEq] at h
    obtain ⟨⟨ds, rest⟩, hd, -, rfl⟩ := h
    have := length_of_digits hd
    simp
    omega
  · simp_all

/-- The value of an exponent takes at least one character. -/
theorem length_of_signedExponent {cs after : List Char} {e : Int}
    (h : signedExponent cs = some (e, after)) :
  after.length < cs.length
  := by
  simp only [signedExponent] at h
  split at h <;>
  · simp only [Option.map_eq_some_iff, Prod.mk.injEq] at h
    obtain ⟨⟨ds, rest⟩, hd, -, rfl⟩ := h
    have := length_of_digits hd
    simp
    omega

/-- An exponent takes no characters back. -/
theorem length_of_exponentPart {cs after : List Char} {e : Option Int}
    (h : exponentPart cs = some (e, after)) :
  after.length ≤ cs.length
  := by
  simp only [exponentPart] at h
  split at h
  · split at h
    · simp only [Option.map_eq_some_iff, Prod.mk.injEq] at h
      obtain ⟨⟨x, rest⟩, hd, -, rfl⟩ := h
      have := length_of_signedExponent hd
      simp
      omega
    · simp_all
  · simp_all

/-- A numeral takes at least one character. -/
theorem length_of_unsigned {negative : Bool} {cs after : List Char} {n : Numeral}
    (h : unsigned negative cs = some (n, after)) :
  after.length < cs.length
  := by
  simp only [unsigned, Option.bind_eq_bind, Option.bind_eq_some_iff, Option.pure_def,
    Option.some.injEq, Prod.mk.injEq, Prod.exists] at h
  obtain ⟨_, _, hw, _, _, hf, _, _, he, -, rfl⟩ := h
  have := length_of_wholePart hw
  have := length_of_fractionPart hf
  have := length_of_exponentPart he
  omega

/-- A numeral takes at least one character, with its sign too. -/
theorem length_of_split {cs after : List Char} {n : Numeral} (h : split cs = some (n, after)) :
  after.length < cs.length
  := by
  simp only [split] at h
  split at h
  · have := length_of_unsigned h
    simp
    omega
  · exact length_of_unsigned h

end Numeral

/-- The text of a number in JSON has the fewest digits.  It has no exponent from 0.00001 up to
below 10000000000000000, and there it always has a decimal point. -/
def jsonStyle : NumberStyle where
  tie := .even
  leastPlain := some (-5)
  greatestPlain := some 15
  wholeMark := ".0"
  exponentMark := "e+"

end TextPipeline
