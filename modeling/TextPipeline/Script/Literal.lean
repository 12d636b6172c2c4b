/-!
# Text literals of scripts

A script holds a text between double quotes.  A backslash stands before a quote and a backslash,
line feed, carriage return and tabulator have letters of their own, and the other control
characters are written by two hexadecimal digits.  All else stands for itself.
-/

namespace TextPipeline

namespace ScriptLiteral

/-- The control characters, below the space and from U+007F to U+009F. -/
def isControl (c : Char) : Bool :=
  c.toNat < 0x20 || (0x7F ≤ c.toNat && c.toNat < 0xA0)

/-- The character as it is written in a literal. -/
def escaped (c : Char) : List Char :=
  match c with
  | '\\' => ['\\', '\\']
  | '"' => ['\\', '"']
  | '\n' => ['\\', 'n']
  | '\r' => ['\\', 'r']
  | '\t' => ['\\', 't']
  | c =>
    if isControl c then
      ['\\', 'x', Nat.digitChar (c.toNat / 16), Nat.digitChar (c.toNat % 16)]
    else [c]

/-- The literal of a text. -/
def written (cs : List Char) : List Char :=
  '"' :: cs.flatMap escaped ++ ['"']

end ScriptLiteral

end TextPipeline
