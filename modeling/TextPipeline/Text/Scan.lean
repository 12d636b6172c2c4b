/-!
# Scanning

A scan takes something from the front of a text and leaves the rest, or finds nothing it can
take.
-/

namespace TextPipeline

/-- What may be found at the front of a text. -/
abbrev Scan (α : Type) : Type := List Char → Option (α × List Char)

namespace Scan

variable {α : Type}

/-- The items up to a closing character, with commas between them and `space` around them.  The
first argument bounds the number of items. -/
def itemsUpTo (item : Scan α) (space : List Char → List Char) (close : Char) (lastComma : Bool) :
    Nat → Bool → Scan (List α)
  | 0, _, _ => none
  | n + 1, mayClose, cs =>
    let cs := space cs
    if mayClose && cs.head? = some close then some ([], cs.drop 1)
    else match item cs with
      | none => none
      | some (a, rest) => match space rest with
        | [] => none
        | c :: rest =>
          if c = close then some ([a], rest)
          else if c = ',' then
            (itemsUpTo item space close lastComma n lastComma rest).map fun (as, after) =>
              (a :: as, after)
          else none

/-- The items up to a closing character, with commas between them and `space` around them.  A
comma may follow the last item if `lastComma` says so.  A text has no more items than
characters. -/
def items (item : Scan α) (space : List Char → List Char) (close : Char) (lastComma : Bool) :
    Scan (List α) :=
  fun cs => itemsUpTo item space close lastComma (cs.length + 1) true cs

/-- A given number of characters that all satisfy `p`. -/
def exactly (n : Nat) (p : Char → Bool) : Scan (List Char) := fun cs =>
  let front := cs.take n
  if front.length = n ∧ front.all p then some (front, cs.drop n) else none

/-- A given character. -/
def char (c : Char) : Scan Unit
  | [] => none
  | d :: rest => if d = c then some ((), rest) else none

/-- The given characters. -/
def word (w : List Char) : Scan Unit := fun cs =>
  if w.isPrefixOf cs then some ((), cs.drop w.length) else none

end Scan

end TextPipeline
