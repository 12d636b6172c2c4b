/-!
# Fresh ids

A new node gets an id of 128 bits, six of which are fixed: four name the version and two the
variant of random ids.  The others are drawn at random, so that no two ids are the same.
-/

namespace TextPipeline

namespace FreshId

/-- The hexadecimal digits of a number, filled up with zeros to a given length. -/
def hexDigits (length n : Nat) : List Char :=
  let digits := Nat.toDigits 16 (n % Nat.pow 16 length)
  List.replicate (length - digits.length) '0' ++ digits

/-- The id with the given random bits. -/
def ofBits (bits : Nat) : String :=
  let part (length shift : Nat) := hexDigits length (bits >>> shift)
  let version := '4' :: part 3 64
  let variant := hexDigits 4 (0x8000 + (bits >>> 48) % 0x4000)
  String.ofList
    (part 8 96 ++ '-' :: part 4 80 ++ '-' :: version ++ '-' :: variant ++ '-' :: part 12 0)

/-- Whether a text is an id of the fourth version in small letters. -/
def isVersion4 (id : String) : Bool :=
  let cs := id.toList
  let isHex (c : Char) := c.isDigit || ('a' ≤ c && c ≤ 'f')
  let isPlaced (place : Nat × Char) :=
    if [8, 13, 18, 23].contains place.1 then place.2 = '-'
    else if place.1 = 14 then place.2 = '4'
    else if place.1 = 19 then ['8', '9', 'a', 'b'].contains place.2
    else isHex place.2
  cs.length = 36 && ((List.range 36).zip cs).all isPlaced

example :
  ofBits 0 = "00000000-0000-4000-8000-000000000000" ∧ isVersion4 (ofBits (Nat.pow 2 128 - 1)) = true
  := by
  decide +kernel

end FreshId

end TextPipeline
