import TextPipeline.Settings.Layer
import TextPipeline.Text.Blank
import TextPipeline.Text.Bytes

/-!
# Settings from the environment

A variable is a setting when its name begins with `NLPFLOW_`, in capital or small letters.  What
follows is the path of the setting, its names being divided by two underscores or by a dot.  The
value is a truth value, a number, a text between double quotes, a character between single quotes,
a list in brackets or a table in braces if it is written so from end to end, and otherwise the text
as it is.
-/

namespace TextPipeline

namespace Environment

/-! ## Values -/

/-- The white space of ASCII. -/
def isSpace (c : Char) : Bool :=
  c = ' ' || c = '\t' || c = '\n' || c = '\x0c' || c = '\r'

/-- The text after the white space at its front. -/
def afterSpaces (cs : List Char) : List Char :=
  cs.dropWhile isSpace

/-- The characters that end a value without quotes. -/
def isSeparator (c : Char) : Bool :=
  c = ',' || c = '\x7b' || c = '\x7d' || c = '[' || c = ']'

/-- The characters of names without quotes. -/
def isNameChar (c : Char) : Bool :=
  c.isAlphanum || c = '_' || c = '-'

/-- The characters that stand for themselves between double quotes. -/
def isLiteral (c : Char) : Bool :=
  TomlText.isPlain c && c != '"' && c != '\\'

/-- A text between double quotes, with escapes.  Of the characters before the first escape those
are kept that fit into as many bytes as there are characters before it. -/
def quotedText : Scan (List Char)
  | '"' :: rest =>
    let front := rest.takeWhile isLiteral
    match rest.dropWhile isLiteral with
    | '"' :: after => some (front, after)
    | back => (TomlText.escaped back).map fun (chars, after) =>
      (takeBytes front.length front ++ chars, after)
  | _ => none

/-- A character between single quotes, which may be any character. -/
def quotedChar : Scan Char
  | '\'' :: c :: '\'' :: after => some (c, after)
  | _ => none

/-- The digits of an exponent with their sign, at the end of a text. -/
def exponent? (cs : List Char) : Option Int :=
  let (negative, digits) := TomlNumber.sign cs
  if digits.isEmpty || !digits.all Char.isDigit then none
  else some (if negative then -(digitsValue digits : Int) else digitsValue digits)

/-- The number with a fraction that a whole text stands for. -/
def float? (cs : List Char) : Option Extended :=
  let (negative, cs) := TomlNumber.sign cs
  let whole := cs.takeWhile Char.isDigit
  match cs.dropWhile Char.isDigit with
  | '.' :: rest =>
    let fraction := rest.takeWhile Char.isDigit
    let number (power : Int) : Extended :=
      .ofDecimal negative ⟨digitsValue (whole ++ fraction), power - fraction.length⟩
    if whole.isEmpty && fraction.isEmpty then none
    else match rest.dropWhile Char.isDigit with
      | [] => some (number 0)
      | c :: rest => if c = 'e' || c = 'E' then (exponent? rest).map number else none
  | _ => none

/-- The whole number that a whole text stands for, if it fits 64 bits. -/
def whole? (cs : List Char) : Option Scalar :=
  let (negative, digits) := TomlNumber.sign cs
  let n := digitsValue digits
  if digits.isEmpty || !digits.all Char.isDigit then none
  else if negative then if n ≤ 0x8000000000000000 then some (.signed (-(n : Int))) else none
  else if n < 0x10000000000000000 then some (.unsigned n) else none

/-- The value of a text without quotes.  Only a text with a point may be a number with a
fraction. -/
def bare (cs : List Char) : Scalar :=
  let cs := trimBlank cs
  match if cs.contains '.' then float? cs else none with
  | some x => .float x
  | none => (whole? cs).getD (.text (String.ofList cs))

/-- A name in a table. -/
def name : Scan String := fun cs =>
  match cs with
  | [] => none
  | c :: _ =>
    if c = '"' then (quotedText cs).map fun (chars, rest) => (String.ofList chars, rest)
    else if isNameChar c then
      some (String.ofList (cs.takeWhile isNameChar), cs.dropWhile isNameChar)
    else none

/-- A name with its value, given how the value is scanned. -/
def pair (value : Scan Setting) : Scan (String × Setting) := fun cs => do
  let (k, cs) ← name (afterSpaces cs)
  let (_, cs) ← Scan.char '=' (afterSpaces cs)
  let (v, cs) ← value cs
  return ((k, v), cs)

/-- A value after the white space at its front, given how the values inside lists and tables are
scanned unless none may be opened. -/
def valueWith (inner : Option (Scan Setting)) : Scan Setting := fun cs =>
  match cs with
  | 't' :: 'r' :: 'u' :: 'e' :: rest => some (.scalar .environment (.bool true), rest)
  | 'f' :: 'a' :: 'l' :: 's' :: 'e' :: rest => some (.scalar .environment (.bool false), rest)
  | '[' :: rest => match inner with
    | none => none
    | some value =>
      (Scan.items value id ']' true rest).map fun (vs, after) => (.list .environment vs, after)
  | '\x7b' :: rest => match inner with
    | none => none
    | some value => (Scan.items (pair value) id '\x7d' true rest).map fun (ms, after) =>
      (.table .environment (ms.foldl (fun acc (k, v) => Named.insert k v acc) []), after)
  | '"' :: _ =>
    (quotedText cs).map fun (chars, rest) =>
      (.scalar .environment (.text (String.ofList chars)), rest)
  | '\'' :: _ =>
    (quotedChar cs).map fun (c, rest) => (.scalar .environment (.char c), rest)
  | cs => some
    (.scalar .environment (bare (cs.takeWhile (!isSeparator ·))), cs.dropWhile (!isSeparator ·))

/-- A value with the white space around it, in which the given number of lists and tables may be
open at one place. -/
def value : Nat → Scan Setting
  | 0 => fun cs => (valueWith none (afterSpaces cs)).map fun (v, rest) => (v, afterSpaces rest)
  | room + 1 => fun cs =>
    (valueWith (some (value room)) (afterSpaces cs)).map fun (v, rest) => (v, afterSpaces rest)

/-- The value of a variable.  A text has no more brackets than characters. -/
def valueOf (text : String) : Setting :=
  match value text.length text.toList with
  | some (v, []) => v
  | _ => .scalar .environment (.text text)

/-! ## Names -/

/-- The beginning of the names of variables that are settings, in small letters. -/
def lead : List Char := "nlpflow_".toList

/-- The names of a path, divided by two underscores or by a dot. -/
def splitPath : List Char → List (List Char)
  | [] => [[]]
  | '_' :: '_' :: rest => [] :: splitPath rest
  | '.' :: rest => [] :: splitPath rest
  | c :: rest => match splitPath rest with
    | [] => [[c]]
    | first :: more => (c :: first) :: more

/-- The path of the setting that a variable gives, if it gives one. -/
def pathOf (name : String) : Option (List String) :=
  let cs := (trimBlank name.toList).map Char.toLower
  if lead.isPrefixOf cs then
    let path := splitPath (trimBlank (cs.drop lead.length))
    if path.any List.isEmpty then none else some (path.map String.ofList)
  else none

/-- The members of a table that holds a value under a path and nothing else. -/
def nested (value : Setting) : List String → Named Setting
  | [] => []
  | [k] => [(k, value)]
  | k :: path => [(k, .table .environment (nested value path))]

end Environment

/-- The layer of the environment, whose variables are merged in their order. -/
def environmentLayer (environment : List (String × String)) : Named Setting :=
  environment.foldl (fun acc (k, v) => match Environment.pathOf k with
    | some path => Setting.mergeMembers acc (Environment.nested (Environment.valueOf v) path)
    | none => acc) []

end TextPipeline
