/-!
# Texts measured in bytes

A character takes one to four bytes in UTF-8, one if it belongs to ASCII.  A text is cut at a
number of bytes without dividing a character.
-/

namespace TextPipeline

/-- The characters at the front of a text that fit into a number of bytes. -/
def takeBytes : Nat → List Char → List Char
  | _, [] => []
  | n, c :: cs => if c.utf8Size ≤ n then c :: takeBytes (n - c.utf8Size) cs else []

/-- Three bytes hold one character of two bytes and one of ASCII, or one character of three. -/
example :
  takeBytes 3 "éab".toList = "éa".toList ∧ takeBytes 3 "日本語".toList = "日".toList
  := by
  decide +kernel

end TextPipeline
