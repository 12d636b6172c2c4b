import TextPipeline.Text.Visible

/-!
# Quoted texts

A text inside a message stands between double quotes, with a backslash in front of a quote and
of a backslash.  What does not show by itself is written by name or by its number, so that the
message stays on one line and shows the whole text.
-/

namespace TextPipeline

/-- The character as it stands between quotes. -/
def quotedChar (c : Char) : List Char :=
  match c with
  | '\x00' => ['\\', '0']
  | '\t' => ['\\', 't']
  | '\n' => ['\\', 'n']
  | '\r' => ['\\', 'r']
  | '"' => ['\\', '"']
  | '\\' => ['\\', '\\']
  | c =>
    if isVisible c then [c]
    else ['\\', 'u', '\x7b'] ++ Nat.toDigits 16 c.toNat ++ ['\x7d']

/-- The text between quotes. -/
def quoted (s : String) : String :=
  String.ofList ('"' :: s.toList.flatMap quotedChar ++ ['"'])

/-- The text between backticks, as it is. -/
def backticked (s : String) : String :=
  "`" ++ s ++ "`"

end TextPipeline
