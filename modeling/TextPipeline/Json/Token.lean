import TextPipeline.Json.Literal
import TextPipeline.Json.Numeral

/-!
# Tokens

A JSON text is a list of tokens with white space between them.  A string whose surrogates have no
partners and a number beyond the binary64 format are tokens too, since they may stand where a
value is only passed over.  The list ends with the token `junk` where no token begins.
-/

namespace TextPipeline

/-- A part of a JSON text that has no parts of its own. -/
inductive Token where
  | openObject
  | closeObject
  | openArray
  | closeArray
  | comma
  | colon
  | null
  | bool (value : Bool)
  | number (value : Number)
  | text (value : String)
  /-- A string that holds a surrogate without a partner. -/
  | unpaired
  /-- A numeral for a number beyond the binary64 format. -/
  | outOfRange
  /-- The place from where on the text has no tokens. -/
  | junk
deriving DecidableEq

namespace Token

/-- The white space between tokens. -/
def isSpace (c : Char) : Bool :=
  c = ' ' || c = '\t' || c = '\n' || c = '\r'

/-- The token of a string with the given pieces. -/
def ofPieces (ps : List Piece) : Token :=
  match Literal.join ps with
  | some cs => .text (String.ofList cs)
  | none => .unpaired

/-- The token of a numeral. -/
def ofNumeral (n : Numeral) : Token :=
  match n.value with
  | some v => .number v
  | none => .outOfRange

/-- The word that a text begins with, and what follows it. -/
def word (cs : List Char) : Option (Token × List Char) :=
  match cs with
  | 'n' :: 'u' :: 'l' :: 'l' :: rest => some (.null, rest)
  | 't' :: 'r' :: 'u' :: 'e' :: rest => some (.bool true, rest)
  | 'f' :: 'a' :: 'l' :: 's' :: 'e' :: rest => some (.bool false, rest)
  | _ => none

/-- The token that a text begins with, its first character being given apart, and what follows
it. -/
def next (c : Char) (cs : List Char) : Option (Token × List Char) :=
  match c with
  | '{' => some (.openObject, cs)
  | '}' => some (.closeObject, cs)
  | '[' => some (.openArray, cs)
  | ']' => some (.closeArray, cs)
  | ',' => some (.comma, cs)
  | ':' => some (.colon, cs)
  | '"' => (Literal.split cs).map fun (ps, rest) => (ofPieces ps, rest)
  | c =>
    if c = '-' || c.isDigit then
      (Numeral.split (c :: cs)).map fun (n, rest) => (ofNumeral n, rest)
    else word (c :: cs)

/-- A word is not empty. -/
theorem length_of_word {c : Char} {cs rest : List Char} {t : Token}
    (h : word (c :: cs) = some (t, rest)) :
  rest.length ≤ cs.length
  := by
  simp only [word] at h
  split at h <;> simp_all <;> omega

/-- A token takes at least its first character. -/
theorem length_of_next {c : Char} {cs rest : List Char} {t : Token}
    (h : next c cs = some (t, rest)) :
  rest.length ≤ cs.length
  := by
  simp only [next] at h
  split at h
  case h_7 =>
    simp only [Option.map_eq_some_iff, Prod.mk.injEq, Prod.exists] at h
    obtain ⟨ps, after, hs, -, rfl⟩ := h
    exact Nat.le_of_lt (Literal.length_of_split hs)
  case h_8 =>
    split at h
    · simp only [Option.map_eq_some_iff, Prod.mk.injEq, Prod.exists] at h
      obtain ⟨n, after, hs, -, rfl⟩ := h
      have := Numeral.length_of_split hs
      simp only [List.length_cons] at this
      omega
    · exact length_of_word h
  all_goals
    simp only [Option.some.injEq, Prod.mk.injEq] at h
    simp [← h.2]

/-- The tokens of a text. -/
def scan : List Char → List Token
  | [] => []
  | c :: cs =>
    if isSpace c then scan cs
    else match _h : next c cs with
      | none => [.junk]
      | some (t, rest) => t :: scan rest
termination_by cs => cs.length
decreasing_by
  · simp
  · have := length_of_next ‹_›
    simp
    omega

end Token

end TextPipeline
