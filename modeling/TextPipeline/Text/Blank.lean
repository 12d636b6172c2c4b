/-!
# White space

The characters with the white space property of Unicode, and texts cut down to what stands
between the first and the last character without it.
-/

namespace TextPipeline

/-- The white space property of Unicode. -/
def isBlank (c : Char) : Bool :=
  (9 ≤ c.val && c.val ≤ 13) || c.val == 0x20 || c.val == 0x85 || c.val == 0xA0 ||
    c.val == 0x1680 || (0x2000 ≤ c.val && c.val ≤ 0x200A) || c.val == 0x2028 ||
    c.val == 0x2029 || c.val == 0x202F || c.val == 0x205F || c.val == 0x3000

/-- The list without the members at its end that satisfy `p`. -/
def dropEndWhile {α : Type} (p : α → Bool) (xs : List α) : List α :=
  (xs.reverse.dropWhile p).reverse

/-- The text without the white space at its two ends. -/
def trimBlank (cs : List Char) : List Char :=
  dropEndWhile isBlank (cs.dropWhile isBlank)

/-- What stays is the front of the list, and what went satisfies `p`. -/
theorem dropEndWhile_append_takeWhile {α : Type} (p : α → Bool) (xs : List α) :
  dropEndWhile p xs ++ (xs.reverse.takeWhile p).reverse = xs
  := by
  rw [dropEndWhile, ← List.reverse_append, List.takeWhile_append_dropWhile, List.reverse_reverse]

end TextPipeline
