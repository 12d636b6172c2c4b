import TextPipeline.Json.Literal
import TextPipeline.Text.Scan

/-!
# TOML strings

A string stands between double quotes, with escapes, or between single quotes, without any.  Three
quotes on either side let it run over several lines; the line feed right after the opening quotes
is dropped, and a backslash at the end of a line drops everything up to the next character that is
no white space.
-/

namespace TextPipeline

namespace TomlText

/-- The white space within a line. -/
def isSpace (c : Char) : Bool :=
  c = ' ' || c = '\t'

/-- The characters that may stand in strings and comments: all but the control characters of
ASCII other than the tabulator. -/
def isPlain (c : Char) : Bool :=
  c = '\t' || (0x20 ≤ c.toNat && c.toNat ≠ 0x7F)

/-- What follows the end of a line, if a text begins with one. -/
def afterNewline : List Char → Option (List Char)
  | '\n' :: rest => some rest
  | '\r' :: '\n' :: rest => some rest
  | _ => none

/-- The character of a given number, unless the number is a surrogate or too large. -/
def charOf (n : Nat) : Option Char :=
  if h : n.isValidChar then some (Char.ofNatAux n h) else none

/-- The number that hexadecimal digits stand for. -/
def hexNumber (digits : List Char) : Option Nat :=
  digits.foldl (fun n c => match n, Literal.hexValue c with
    | some n, some d => some (16 * n + d)
    | _, _ => none) (some 0)

/-- The character that a letter after a backslash stands for. -/
def shortEscape : Char → Option Char
  | 'b' => some '\x08'
  | 't' => some '\t'
  | 'n' => some '\n'
  | 'f' => some '\x0c'
  | 'r' => some '\r'
  | '"' => some '"'
  | '\\' => some '\\'
  | _ => none

/-- The text with a character in front, if there is one and the text is read. -/
def prepend (c : Option Char) (found : Option (List Char × List Char)) :
    Option (List Char × List Char) :=
  match c, found with
  | some c, some (cs, rest) => some (c :: cs, rest)
  | _, _ => none

/-- The rest of a string on one line, after its opening double quote. -/
def escaped : List Char → Option (List Char × List Char)
  | [] => none
  | '"' :: rest => some ([], rest)
  | '\\' :: 'u' :: a :: b :: c :: d :: rest =>
    prepend ((hexNumber [a, b, c, d]).bind charOf) (escaped rest)
  | '\\' :: 'U' :: a :: b :: c :: d :: e :: f :: g :: h :: rest =>
    prepend ((hexNumber [a, b, c, d, e, f, g, h]).bind charOf) (escaped rest)
  | '\\' :: e :: rest => prepend (shortEscape e) (escaped rest)
  | c :: rest => if isPlain c then prepend (some c) (escaped rest) else none

/-- The rest of a string on one line, after its opening single quote. -/
def literal : List Char → Option (List Char × List Char)
  | [] => none
  | '\'' :: rest => some ([], rest)
  | c :: rest => if isPlain c then prepend (some c) (literal rest) else none

/-- The rest of a string over several lines, after its opening double quotes.  White space and
ends of lines are dropped while `dropping` says so. -/
def multiline (dropping : Bool) : List Char → Option (List Char × List Char)
  | [] => none
  | '"' :: '"' :: '"' :: '"' :: '"' :: rest => some (['"', '"'], rest)
  | '"' :: '"' :: '"' :: '"' :: rest => some (['"'], rest)
  | '"' :: '"' :: '"' :: rest => some ([], rest)
  | '\\' :: 'u' :: a :: b :: c :: d :: rest =>
    prepend ((hexNumber [a, b, c, d]).bind charOf) (multiline false rest)
  | '\\' :: 'U' :: a :: b :: c :: d :: e :: f :: g :: h :: rest =>
    prepend ((hexNumber [a, b, c, d, e, f, g, h]).bind charOf) (multiline false rest)
  | '\\' :: e :: rest =>
    if (afterNewline ((e :: rest).dropWhile isSpace)).isSome then multiline true (e :: rest)
    else prepend (shortEscape e) (multiline false rest)
  | '\r' :: '\n' :: rest =>
    if dropping then multiline true rest else prepend (some '\n') (multiline false rest)
  | c :: rest =>
    if dropping && (isSpace c || c = '\n') then multiline true rest
    else if isPlain c || c = '\n' then prepend (some c) (multiline false rest)
    else none

/-- The rest of a string over several lines, after its opening single quotes. -/
def multilineLiteral : List Char → Option (List Char × List Char)
  | [] => none
  | '\'' :: '\'' :: '\'' :: '\'' :: '\'' :: rest => some (['\'', '\''], rest)
  | '\'' :: '\'' :: '\'' :: '\'' :: rest => some (['\''], rest)
  | '\'' :: '\'' :: '\'' :: rest => some ([], rest)
  | '\r' :: '\n' :: rest => prepend (some '\n') (multilineLiteral rest)
  | c :: rest =>
    if isPlain c || c = '\n' then prepend (some c) (multilineLiteral rest) else none

/-- The text without the end of a line at its front. -/
def dropNewline (cs : List Char) : List Char :=
  (afterNewline cs).getD cs

/-- A string on one line. -/
def line : Scan (List Char)
  | '"' :: rest => escaped rest
  | '\'' :: rest => literal rest
  | _ => none

/-- A string. -/
def any : Scan (List Char)
  | '"' :: '"' :: '"' :: rest => multiline false (dropNewline rest)
  | '\'' :: '\'' :: '\'' :: rest => multilineLiteral (dropNewline rest)
  | cs => line cs

end TomlText

end TextPipeline
