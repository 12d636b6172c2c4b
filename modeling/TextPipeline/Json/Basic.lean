import TextPipeline.Decimal.Double
import TextPipeline.Named

/-!
# JSON values

A JSON value is null, a truth value, a number, a text, an array or an object.  Whole numbers are
kept exactly, all others as numbers of the binary64 format.  An object is the list of its
members; where the order carries no meaning the members are sorted by name and no name occurs
twice.
-/

namespace TextPipeline

/-- A JSON value. -/
inductive Json where
  | null
  | bool (value : Bool)
  | int (value : Int)
  | double (value : Double)
  | str (value : String)
  | arr (elements : List Json)
  | obj (members : List (String × Json))
deriving Inhabited

namespace Json

mutual

/-- Whether two values are the same. -/
def same : Json → Json → Bool
  | .null, .null => true
  | .bool a, .bool b => a == b
  | .int a, .int b => a == b
  | .double a, .double b => a == b
  | .str a, .str b => a == b
  | .arr a, .arr b => sameElements a b
  | .obj a, .obj b => sameMembers a b
  | _, _ => false

/-- Whether two lists of values are the same. -/
def sameElements : List Json → List Json → Bool
  | [], [] => true
  | a :: as, b :: bs => a.same b && sameElements as bs
  | _, _ => false

/-- Whether two lists of members are the same. -/
def sameMembers : List (String × Json) → List (String × Json) → Bool
  | [], [] => true
  | (k, a) :: as, (l, b) :: bs => k == l && a.same b && sameMembers as bs
  | _, _ => false

end

mutual

/-- The comparison of values decides their equality. -/
theorem same_iff (a b : Json) :
  a.same b = true ↔ a = b
  := by
  cases a with
  | arr as => cases b <;> simp [same, sameElements_iff as]
  | obj as => cases b <;> simp [same, sameMembers_iff as]
  | _ => cases b <;> simp [same]

/-- The comparison of lists of values decides their equality. -/
theorem sameElements_iff (as bs : List Json) :
  sameElements as bs = true ↔ as = bs
  := by
  cases as with
  | nil => cases bs <;> simp [sameElements]
  | cons a as => cases bs <;> simp [sameElements, same_iff a, sameElements_iff as]

/-- The comparison of lists of members decides their equality. -/
theorem sameMembers_iff (as bs : List (String × Json)) :
  sameMembers as bs = true ↔ as = bs
  := by
  cases as with
  | nil => cases bs <;> simp [sameMembers]
  | cons a as =>
    obtain ⟨k, a⟩ := a
    cases bs <;> simp [sameMembers, same_iff a, sameMembers_iff as, Prod.ext_iff]

end

instance : DecidableEq Json := fun a b => decidable_of_iff _ (same_iff a b)

end Json

end TextPipeline
