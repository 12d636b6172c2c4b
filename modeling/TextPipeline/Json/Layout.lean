import TextPipeline.Json.Basic
import TextPipeline.Json.Literal
import TextPipeline.Json.Numeral

/-!
# Writing values

A value is written on one line without any space, or with each element and each member on a line
of its own, indented by two spaces for every array and object around it.  The members of an object
are written in the order of the list.
-/

namespace TextPipeline

/-- How a value is spread over lines. -/
inductive Layout where
  | compact
  | indented
deriving DecidableEq, Repr

namespace Layout

/-- What stands before an element or a bracket at a level of nesting. -/
def line : Layout → Nat → List Char
  | .compact, _ => []
  | .indented, level => '\n' :: List.replicate (2 * level) ' '

/-- What stands between a name and its value. -/
def colon : Layout → List Char
  | .compact => [':']
  | .indented => [':', ' ']

mutual

/-- The text of a value at a level of nesting. -/
def value (layout : Layout) (level : Nat) : Json → List Char
  | .null => "null".toList
  | .bool b => (toString b).toList
  | .int n => (toString n).toList
  | .double d => jsonStyle.text d
  | .str s => Literal.written s.toList
  | .arr [] => ['[', ']']
  | .arr (x :: xs) =>
    '[' :: layout.line (level + 1) ++ layout.value (level + 1) x ++
      layout.moreElements level xs ++ layout.line level ++ [']']
  | .obj [] => ['{', '}']
  | .obj ((k, v) :: ms) =>
    '{' :: layout.line (level + 1) ++ Literal.written k.toList ++ layout.colon ++
      layout.value (level + 1) v ++ layout.moreMembers level ms ++ layout.line level ++ ['}']

/-- The text of the elements that follow the first one, in an array at a level of nesting. -/
def moreElements (layout : Layout) (level : Nat) : List Json → List Char
  | [] => []
  | x :: xs =>
    ',' :: layout.line (level + 1) ++ layout.value (level + 1) x ++ layout.moreElements level xs

/-- The text of the members that follow the first one, in an object at a level of nesting. -/
def moreMembers (layout : Layout) (level : Nat) : List (String × Json) → List Char
  | [] => []
  | (k, v) :: ms =>
    ',' :: layout.line (level + 1) ++ Literal.written k.toList ++ layout.colon ++
      layout.value (level + 1) v ++ layout.moreMembers level ms

end

end Layout

namespace Json

/-- The text of a value. -/
def text (layout : Layout) (v : Json) : String :=
  String.ofList (layout.value 0 v)

end Json

end TextPipeline
