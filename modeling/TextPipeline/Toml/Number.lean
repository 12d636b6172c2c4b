import TextPipeline.Decimal.Extended
import TextPipeline.Json.Numeral
import TextPipeline.Toml.Text

/-!
# TOML numbers and moments

Whole numbers have 64 bits with a sign and may be given to base ten, sixteen, eight or two.  Other
numbers have a fraction or an exponent, or are an infinity or no number.  An underscore may stand
between two digits.  A moment is a date of the calendar, a time of day, or a date and a time with
or without the difference to universal time.
-/

namespace TextPipeline

namespace TomlNumber

/-- The digits at the front of a text without the underscores between them. -/
def digitsFrom (p : Char → Bool) : List Char → List Char × List Char
  | '_' :: c :: rest =>
    if p c then
      let (digits, after) := digitsFrom p rest
      (c :: digits, after)
    else ([], '_' :: c :: rest)
  | c :: rest =>
    if p c then
      let (digits, after) := digitsFrom p rest
      (c :: digits, after)
    else ([], c :: rest)
  | [] => ([], [])

/-- The digits at the front of a text, of which the first is no underscore. -/
def digits (p : Char → Bool) : Scan (List Char)
  | [] => none
  | c :: rest => if p c then some (digitsFrom p (c :: rest)) else none

/-- The digits of a whole number to base ten, a single zero or no zero at the front. -/
def wholeDigits : Scan (List Char)
  | '0' :: rest => some (['0'], rest)
  | cs => digits Char.isDigit cs

/-- Whether a number is negative, and what follows its sign. -/
def sign : List Char → Bool × List Char
  | '-' :: rest => (true, rest)
  | '+' :: rest => (false, rest)
  | cs => (false, cs)

/-- The digits of an exponent with their sign, if a letter begins one. -/
def exponent : Scan Int
  | c :: rest =>
    if c = 'e' || c = 'E' then
      let (negative, cs) := sign rest
      (digits Char.isDigit cs).map fun (ds, after) =>
        (if negative then -(digitsValue ds : Int) else digitsValue ds, after)
    else none
  | [] => none

/-- The digits of a fraction, if a point begins one. -/
def fraction : Scan (List Char)
  | '.' :: rest => digits Char.isDigit rest
  | _ => none

/-- A number with a fraction or an exponent.  One beyond the greatest number is refused, one
beyond the least is an infinity. -/
def ofDigits (negative : Bool) : Scan Extended := fun cs => do
  let (whole, cs) ← wholeDigits cs
  let (fractionDigits, cs, hasFraction) := match fraction cs with
    | some (ds, after) => (ds, after, true)
    | none => ([], cs, false)
  let (power, cs, hasExponent) := match exponent cs with
    | some (e, after) => (e, after, true)
    | none => (0, cs, false)
  let decimal : Decimal := ⟨digitsValue (whole ++ fractionDigits), power - fractionDigits.length⟩
  if !hasFraction && !hasExponent then none
  else match Extended.ofDecimal negative decimal with
    | .infinite false => none
    | x => some (x, cs)

/-- A number that is not written as a whole one. -/
def float : Scan Extended := fun cs =>
  match sign cs with
  | (negative, 'i' :: 'n' :: 'f' :: rest) => some (.infinite negative, rest)
  | (_, 'n' :: 'a' :: 'n' :: rest) => some (.nan, rest)
  | (negative, rest) => ofDigits negative rest

/-- The number that digits to a base stand for. -/
def valueToBase (base : Nat) (ds : List Char) : Nat :=
  ds.foldl (fun n c => base * n + (Literal.hexValue c).getD 0) 0

/-- A whole number without a sign, to a base other than ten. -/
def based (base : Nat) : Scan Int := fun cs =>
  let isDigit (c : Char) := (Literal.hexValue c).any (· < base)
  match digits isDigit cs with
  | some (ds, after) =>
    let n := valueToBase base ds
    if n < 0x8000000000000000 then some ((n : Int), after) else none
  | none => none

/-- A whole number. -/
def integer : Scan Int
  | '0' :: 'x' :: rest => based 16 rest
  | '0' :: 'o' :: rest => based 8 rest
  | '0' :: 'b' :: rest => based 2 rest
  | cs =>
    let (negative, rest) := sign cs
    match wholeDigits rest with
    | some (ds, after) =>
      let n := digitsValue ds
      if negative then if n ≤ 0x8000000000000000 then some (-(n : Int), after) else none
      else if n < 0x8000000000000000 then some ((n : Int), after) else none
    | none => none

end TomlNumber

namespace TomlMoment

/-- A number of exactly `n` digits. -/
def number (n : Nat) : Scan Nat := fun cs =>
  (Scan.exactly n Char.isDigit cs).map fun (ds, after) => (digitsValue ds, after)

/-- The number of days of a month. -/
def daysOf (year month : Nat) : Nat :=
  if month = 2 then
    if (year % 4 = 0 ∧ year % 100 ≠ 0) ∨ year % 400 = 0 then 29 else 28
  else if month = 4 ∨ month = 6 ∨ month = 9 ∨ month = 11 then 30
  else 31

/-- A date of the calendar. -/
def date : Scan Unit := fun cs => do
  let (year, cs) ← number 4 cs
  let (_, cs) ← Scan.char '-' cs
  let (month, cs) ← number 2 cs
  let (_, cs) ← Scan.char '-' cs
  let (day, cs) ← number 2 cs
  if 1 ≤ month ∧ month ≤ 12 ∧ 1 ≤ day ∧ day ≤ daysOf year month then some ((), cs) else none

/-- The parts of a second after a point, if there are any. -/
def afterSecond (cs : List Char) : List Char :=
  match cs with
  | '.' :: c :: rest => if c.isDigit then rest.dropWhile Char.isDigit else cs
  | _ => cs

/-- Hours and minutes. -/
def hourMinute : Scan Unit := fun cs => do
  let (hour, cs) ← number 2 cs
  let (_, cs) ← Scan.char ':' cs
  let (minute, cs) ← number 2 cs
  if hour ≤ 23 ∧ minute ≤ 59 then some ((), cs) else none

/-- A time of day. -/
def time : Scan Unit := fun cs => do
  let (_, cs) ← hourMinute cs
  let (_, cs) ← Scan.char ':' cs
  let (second, cs) ← number 2 cs
  if second ≤ 60 then some ((), afterSecond cs) else none

/-- What follows the difference to universal time, if one is given. -/
def afterOffset (cs : List Char) : List Char :=
  match cs with
  | c :: rest =>
    if c = 'Z' || c = 'z' then rest
    else if c = '+' || c = '-' then match hourMinute rest with
      | some (_, after) => after
      | none => cs
    else cs
  | [] => []

/-- What follows a time after a date, if one is given. -/
def afterTime (cs : List Char) : List Char :=
  match cs with
  | c :: rest =>
    if c = 'T' || c = 't' || c = ' ' then match time rest with
      | some (_, after) => afterOffset after
      | none => cs
    else cs
  | [] => []

/-- A moment as it is written. -/
def moment : Scan (List Char) := fun cs =>
  let found : Option (List Char) := match date cs with
    | some (_, after) => some (afterTime after)
    | none => (time cs).map (·.2)
  found.map fun after => (cs.take (cs.length - after.length), after)

end TomlMoment

end TextPipeline
