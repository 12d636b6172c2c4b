import TextPipeline.Json.Basic
import TextPipeline.Json.Pass
import TextPipeline.Proofs.Json.Spelling

/-!
# Forms of values

The tokens of an array are those of its elements with commas between them, in brackets, and the
tokens of an object are those of its members, in braces.  A list of tokens is a value if it is
made up in this way, from strings and numbers of any kind.  A JSON value may be written in several
forms, since the members of its objects come in any order.
-/

namespace TextPipeline

namespace Token

/-! ### Arrays and objects -/

/-- The items that follow the first one, with a comma in front of each, and the closing token. -/
def moreItems (close : Token) : List (List Token) → List Token
  | [] => [close]
  | item :: items => .comma :: (item ++ moreItems close items)

/-- The items with commas between them, and the closing token. -/
def items (close : Token) : List (List Token) → List Token
  | [] => [close]
  | item :: items => item ++ moreItems close items

/-- The tokens of an array with the given elements. -/
def arrayOf (elements : List (List Token)) : List Token :=
  .openArray :: items .closeArray elements

/-- The tokens of an object whose names are the given strings. -/
def objectOf (members : List (Token × List Token)) : List Token :=
  .openObject :: items .closeObject (members.map fun m => m.1 :: .colon :: m.2)

/-- The tokens of an object with the given members. -/
def recordOf (members : Named (List Token)) : List Token :=
  .openObject :: items .closeObject (members.map fun m => .text m.1 :: .colon :: m.2)

/-- The names of an object with the given members are texts. -/
theorem recordOf_eq_objectOf (members : Named (List Token)) :
  recordOf members = objectOf (members.map fun m => (.text m.1, m.2))
  := by
  rw [recordOf, objectOf, List.map_map]
  rfl

/-! ### Values -/

/-- The tokens make up a value. -/
inductive IsValue : List Token → Prop where
  | scalar {t : Token} (h : t.isScalar = true) : IsValue [t]
  | array {elements : List (List Token)} (h : ∀ ts ∈ elements, IsValue ts) :
      IsValue (arrayOf elements)
  | object {members : List (Token × List Token)} (hnames : ∀ m ∈ members, m.1.isString = true)
      (h : ∀ m ∈ members, IsValue m.2) : IsValue (objectOf members)

/-- An object with values under its names is a value. -/
theorem isValue_recordOf {members : Named (List Token)} (h : ∀ m ∈ members, IsValue m.2) :
  IsValue (recordOf members)
  := by
  rw [recordOf_eq_objectOf]
  apply IsValue.object
  · intro m hm
    obtain ⟨_, -, rfl⟩ := List.mem_map.1 hm
    rfl
  · intro m hm
    obtain ⟨m', hm', rfl⟩ := List.mem_map.1 hm
    apply h m' hm'

/-- A value begins with a token, and not with a closing bracket. -/
theorem IsValue.exists_eq_cons {ts : List Token} (h : IsValue ts) :
  ∃ t rest, ts = t :: rest ∧ t ≠ .closeArray
  := by
  cases h with
  | @scalar t h =>
    use t, [], rfl
    rintro rfl
    simp [isScalar] at h
  | array h => exact ⟨_, _, rfl, by simp⟩
  | object hnames h => exact ⟨_, _, rfl, by simp⟩

/-! ### Numbers in values -/

/-- What begins with no number stays apart from the tokens before it. -/
theorem Apart.append {ts us : List Token} (h : Apart ts) (h' : Apart us)
    (hhead : ∀ u ∈ us.head?, u.isNumber = false) :
  Apart (ts ++ us)
  := by
  apply List.isChain_append.2
  refine ⟨h, h', ?_⟩
  intro t _ u hu _
  apply hhead u hu

/-- Numbers are apart behind a token that is none. -/
theorem Apart.cons {t : Token} {ts : List Token} (h : Apart ts) (ht : t.isNumber = false) :
  Apart (t :: ts)
  := by
  apply List.IsChain.cons h
  intro u _ hnumber
  rw [ht] at hnumber
  cases hnumber

/-- No number follows an item. -/
theorem isNumber_of_mem_head?_moreItems {close : Token} (hclose : close.isNumber = false)
    (its : List (List Token)) :
  ∀ t ∈ (moreItems close its).head?, t.isNumber = false
  := by
  cases its with
  | nil => simp [moreItems, hclose]
  | cons item its => simp [moreItems, isNumber]

/-- The numbers are apart in the items that follow the first one if they are in each. -/
theorem apart_moreItems {close : Token} (hclose : close.isNumber = false)
    {its : List (List Token)} (h : ∀ ts ∈ its, Apart ts) :
  Apart (moreItems close its)
  := by
  induction its with
  | nil => apply List.isChain_singleton
  | cons item its ih =>
    have hmore := ih fun ts hts => h ts (List.mem_cons_of_mem item hts)
    have hitem := (h item List.mem_cons_self).append hmore
      (isNumber_of_mem_head?_moreItems hclose its)
    apply hitem.cons rfl

/-- The numbers are apart in items if they are in each. -/
theorem apart_items {close : Token} (hclose : close.isNumber = false)
    {its : List (List Token)} (h : ∀ ts ∈ its, Apart ts) :
  Apart (items close its)
  := by
  cases its with
  | nil => apply List.isChain_singleton
  | cons item its =>
    have hmore := apart_moreItems hclose fun ts hts => h ts (List.mem_cons_of_mem item hts)
    apply (h item List.mem_cons_self).append hmore (isNumber_of_mem_head?_moreItems hclose its)

/-- A string is no number. -/
theorem isNumber_of_isString {t : Token} (h : t.isString = true) :
  t.isNumber = false
  := by
  cases t <;> simp_all [isString, isNumber]

/-- In a value no number comes right after another one. -/
theorem IsValue.apart {ts : List Token} (h : IsValue ts) :
  Apart ts
  := by
  induction h with
  | scalar => apply List.isChain_singleton
  | array _ ih => apply (apart_items rfl ih).cons rfl
  | object hnames _ ih =>
    apply (apart_items rfl _).cons rfl
    intro ts hts
    obtain ⟨m, hm, rfl⟩ := List.mem_map.1 hts
    apply ((ih m hm).cons rfl).cons (isNumber_of_isString (hnames m hm))

end Token

namespace Json

/-! ### Forms of a JSON value -/

/-- The value may be written as the tokens, with the members of its objects in any order. -/
inductive WrittenAs : Json → List Token → Prop where
  | null : WrittenAs .null [.null]
  | bool (value : Bool) : WrittenAs (.bool value) [.bool value]
  | int (value : Int) : WrittenAs (.int value) [.number (.int value)]
  | double (value : Double) : WrittenAs (.double value) [.number (.double value)]
  | str (value : String) : WrittenAs (.str value) [.text value]
  | arr {parts : List (Json × List Token)} (h : ∀ p ∈ parts, WrittenAs p.1 p.2) :
      WrittenAs (.arr (parts.map Prod.fst)) (Token.arrayOf (parts.map Prod.snd))
  | obj {members : Named Json} {parts : Named (Json × List Token)}
      (hmembers : (parts.map fun p => (p.1, p.2.1)).Perm members)
      (h : ∀ p ∈ parts, WrittenAs p.2.1 p.2.2) :
      WrittenAs (.obj members) (Token.recordOf (parts.map fun p => (p.1, p.2.2)))

/-- Every form of a JSON value is a value. -/
theorem WrittenAs.isValue {v : Json} {ts : List Token} (h : v.WrittenAs ts) :
  Token.IsValue ts
  := by
  induction h with
  | arr _ ih =>
    apply Token.IsValue.array
    intro ts hts
    obtain ⟨p, hp, rfl⟩ := List.mem_map.1 hts
    apply ih p hp
  | obj _ _ ih =>
    apply Token.isValue_recordOf
    intro m hm
    obtain ⟨p, hp, rfl⟩ := List.mem_map.1 hm
    apply ih p hp
  | _ => apply Token.IsValue.scalar rfl

end Json

end TextPipeline
