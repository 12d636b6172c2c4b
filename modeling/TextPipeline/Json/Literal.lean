/-!
# JSON strings

The text of a string stands between double quotes.  A quote, a backslash and the control
characters below the space are written as escapes; every other character may stand for itself.
An escape by number gives a unit of sixteen bits, and a character above them is a pair of
surrogate units.  Reading goes in two steps: the string is split into characters and units, and
the units are then joined to characters, which fails where a surrogate has no partner.
-/

namespace TextPipeline

/-- A character of a string, or a unit of sixteen bits that was given by number. -/
inductive Piece where
  | char (c : Char)
  | unit (n : Nat)
deriving DecidableEq, Repr

namespace Literal

/-- The value of a hexadecimal digit. -/
def hexValue (c : Char) : Option Nat :=
  if '0' ≤ c ∧ c ≤ '9' then some (c.toNat - 48)
  else if 'a' ≤ c ∧ c ≤ 'f' then some (c.toNat - 87)
  else if 'A' ≤ c ∧ c ≤ 'F' then some (c.toNat - 55)
  else none

/-- The value of four hexadecimal digits. -/
def unitValue (a b c d : Char) : Option Nat :=
  match hexValue a, hexValue b, hexValue c, hexValue d with
  | some a, some b, some c, some d => some (((a * 16 + b) * 16 + c) * 16 + d)
  | _, _, _, _ => none

/-- The character that a letter after a backslash stands for. -/
def shortEscape : Char → Option Char
  | '"' => some '"'
  | '\\' => some '\\'
  | '/' => some '/'
  | 'b' => some '\x08'
  | 'f' => some '\x0c'
  | 'n' => some '\n'
  | 'r' => some '\r'
  | 't' => some '\t'
  | _ => none

/-- The pieces up to the closing quote, and what follows it. -/
def split : List Char → Option (List Piece × List Char)
  | [] => none
  | '"' :: rest => some ([], rest)
  | '\\' :: 'u' :: a :: b :: c :: d :: rest =>
    match unitValue a b c d, split rest with
    | some n, some (ps, after) => some (.unit n :: ps, after)
    | _, _ => none
  | '\\' :: e :: rest =>
    match shortEscape e, split rest with
    | some c, some (ps, after) => some (.char c :: ps, after)
    | _, _ => none
  | c :: rest =>
    if c.val < 0x20 then none
    else match split rest with
      | some (ps, after) => some (.char c :: ps, after)
      | none => none

/-- The units that begin a pair. -/
def isLeading (n : Nat) : Bool :=
  0xD800 ≤ n && n < 0xDC00

/-- The units that end a pair. -/
def isTrailing (n : Nat) : Bool :=
  0xDC00 ≤ n && n < 0xE000

/-- The text of the pieces, or nothing if a surrogate has no partner. -/
def join : List Piece → Option (List Char)
  | [] => some []
  | .char c :: rest => (join rest).map (c :: ·)
  | .unit n :: rest =>
    if isTrailing n then none
    else if isLeading n then
      match rest with
      | .unit m :: rest' =>
        if isTrailing m then
          (join rest').map (Char.ofNat (0x10000 + (n - 0xD800) * 0x400 + (m - 0xDC00)) :: ·)
        else none
      | _ => none
    else (join rest).map (Char.ofNat n :: ·)

/-- The hexadecimal digit of a number below sixteen. -/
def hexDigit (n : Nat) : Char :=
  Nat.digitChar n

/-- The character as it is written in a string. -/
def escaped (c : Char) : List Char :=
  match c with
  | '"' => ['\\', '"']
  | '\\' => ['\\', '\\']
  | '\x08' => ['\\', 'b']
  | '\x0c' => ['\\', 'f']
  | '\n' => ['\\', 'n']
  | '\r' => ['\\', 'r']
  | '\t' => ['\\', 't']
  | c =>
    if c.val < 0x20 then ['\\', 'u', '0', '0', hexDigit (c.toNat / 16), hexDigit (c.toNat % 16)]
    else [c]

/-- The text as a string. -/
def written (cs : List Char) : List Char :=
  '"' :: cs.flatMap escaped ++ ['"']

/-- Splitting takes at least the closing quote. -/
theorem length_of_split {cs : List Char} {ps : List Piece} {after : List Char}
    (h : split cs = some (ps, after)) :
  after.length < cs.length
  := by
  fun_induction split cs generalizing ps after <;> simp_all <;> grind

end Literal

end TextPipeline
