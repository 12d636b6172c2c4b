import TextPipeline.Json.Layout
import TextPipeline.Proofs.Json.Grammar

/-!
# Tokens of written values

However a value is spread over lines, its text spells the same tokens, which are one of the forms
of the value, if its numbers are read back as they are written.  Whole numbers are read back if they
fit 64 bits; the tokens of other whole numbers would be those of nearby numbers of the binary64
format.
-/

namespace TextPipeline

namespace Json

/-- The whole numbers in the value fit 64 bits, with or without a sign. -/
inductive Fits : Json → Prop where
  | null : Fits .null
  | bool (value : Bool) : Fits (.bool value)
  | int {value : Int} (h : Numeral.Fits value) : Fits (.int value)
  | double (value : Double) : Fits (.double value)
  | str (value : String) : Fits (.str value)
  | arr {elements : List Json} (h : ∀ v ∈ elements, Fits v) : Fits (.arr elements)
  | obj {members : Named Json} (h : ∀ m ∈ members, Fits m.2) : Fits (.obj members)

mutual

/-- The numbers of the binary64 format in a value. -/
def doubles : Json → List Double
  | .double d => [d]
  | .arr vs => elementDoubles vs
  | .obj ms => memberDoubles ms
  | _ => []

/-- The numbers of the binary64 format in elements. -/
def elementDoubles : List Json → List Double
  | [] => []
  | v :: vs => v.doubles ++ elementDoubles vs

/-- The numbers of the binary64 format in the values of members. -/
def memberDoubles : Named Json → List Double
  | [] => []
  | (_, v) :: ms => v.doubles ++ memberDoubles ms

end

mutual

/-- The tokens of a value. -/
def tokens : Json → List Token
  | .null => [.null]
  | .bool b => [.bool b]
  | .int i => [.number (.int i)]
  | .double d => [.number (.double d)]
  | .str s => [.text s]
  | .arr vs => .openArray :: elementTokens vs
  | .obj ms => .openObject :: memberTokens ms

/-- The tokens of an array after its opening bracket. -/
def elementTokens : List Json → List Token
  | [] => [.closeArray]
  | v :: vs => v.tokens ++ moreElementTokens vs

/-- The tokens of the elements that follow the first one, with the closing bracket. -/
def moreElementTokens : List Json → List Token
  | [] => [.closeArray]
  | v :: vs => .comma :: (v.tokens ++ moreElementTokens vs)

/-- The tokens of an object after its opening brace. -/
def memberTokens : Named Json → List Token
  | [] => [.closeObject]
  | (k, v) :: ms => .text k :: .colon :: (v.tokens ++ moreMemberTokens ms)

/-- The tokens of the members that follow the first one, with the closing brace. -/
def moreMemberTokens : Named Json → List Token
  | [] => [.closeObject]
  | (k, v) :: ms => .comma :: .text k :: .colon :: (v.tokens ++ moreMemberTokens ms)

end

/-! ### Numbers of the binary64 format -/

/-- The numbers in an array are those in its elements. -/
theorem mem_doubles_arr {vs : List Json} {d : Double} :
  d ∈ (arr vs).doubles ↔ ∃ v ∈ vs, d ∈ v.doubles
  := by
  rw [doubles]
  induction vs with
  | nil => simp [elementDoubles]
  | cons v vs ih => simp [elementDoubles, ih]

/-- The numbers in an object are those in the values of its members. -/
theorem mem_doubles_obj {ms : Named Json} {d : Double} :
  d ∈ (obj ms).doubles ↔ ∃ m ∈ ms, d ∈ m.2.doubles
  := by
  rw [doubles]
  induction ms with
  | nil => simp [memberDoubles]
  | cons m ms ih => simp [memberDoubles, ih]

/-! ### One of the forms -/

/-- The tokens of the elements that follow the first one are items. -/
theorem moreElementTokens_eq_moreItems (vs : List Json) :
  moreElementTokens vs = Token.moreItems .closeArray (vs.map tokens)
  := by
  induction vs with
  | nil => rfl
  | cons v vs ih => rw [moreElementTokens, ih, List.map_cons, Token.moreItems]

/-- The tokens of an array are those of its elements. -/
theorem tokens_arr (vs : List Json) :
  (arr vs).tokens = Token.arrayOf (vs.map tokens)
  := by
  cases vs with
  | nil => rfl
  | cons v vs =>
    rw [tokens, elementTokens, moreElementTokens_eq_moreItems, Token.arrayOf, List.map_cons,
      Token.items]

/-- The tokens of the members that follow the first one are items. -/
theorem moreMemberTokens_eq_moreItems (ms : Named Json) :
  moreMemberTokens ms
    = Token.moreItems .closeObject (ms.map fun m => .text m.1 :: .colon :: m.2.tokens)
  := by
  induction ms with
  | nil => rfl
  | cons m ms ih =>
    rw [moreMemberTokens, ih, List.map_cons, Token.moreItems, List.cons_append, List.cons_append]

/-- The tokens of an object are those of its members. -/
theorem tokens_obj (ms : Named Json) :
  (obj ms).tokens = Token.recordOf (ms.map fun m => (m.1, m.2.tokens))
  := by
  rw [Token.recordOf, List.map_map]
  cases ms with
  | nil => rfl
  | cons m ms =>
    rw [tokens, memberTokens, moreMemberTokens_eq_moreItems, List.map_cons, Token.items]
    rfl

/-- The tokens of a value whose whole numbers fit are one of its forms. -/
theorem Fits.writtenAs_tokens {v : Json} (h : v.Fits) :
  v.WrittenAs v.tokens
  := by
  induction h with
  | null => apply WrittenAs.null
  | bool value => apply WrittenAs.bool
  | int _ => apply WrittenAs.int
  | double value => apply WrittenAs.double
  | str value => apply WrittenAs.str
  | @arr vs _ ih =>
    have hparts : ∀ p ∈ vs.map fun v => (v, v.tokens), WrittenAs p.1 p.2 := by
      intro p hp
      obtain ⟨v, hv, rfl⟩ := List.mem_map.1 hp
      apply ih v hv
    have hform := WrittenAs.arr hparts
    simp only [List.map_map, Function.comp_def, List.map_id_fun', id] at hform
    rw [tokens_arr]
    apply hform
  | @obj ms _ ih =>
    have hparts : ∀ p ∈ ms.map fun m => (m.1, m.2, m.2.tokens), WrittenAs p.2.1 p.2.2 := by
      intro p hp
      obtain ⟨m, hm, rfl⟩ := List.mem_map.1 hp
      apply ih m hm
    have hmembers :
        ((ms.map fun m => (m.1, m.2, m.2.tokens)).map fun p => (p.1, p.2.1)).Perm ms := by
      simp only [List.map_map, Function.comp_def, Prod.mk.eta, List.map_id_fun', id]
      apply List.Perm.refl
    have hform := WrittenAs.obj hmembers hparts
    simp only [List.map_map, Function.comp_def] at hform
    rw [tokens_obj]
    apply hform

end Json

namespace Layout

open Token (SpellsAll)

/-! ### Layouts -/

/-- The space in front of an element spells nothing. -/
theorem spellsAll_line_append (layout : Layout) (level : Nat) {ts : List Token} {cs : List Char}
    (h : SpellsAll ts cs) :
  SpellsAll ts (layout.line level ++ cs)
  := by
  have hspaces : ∀ n, SpellsAll ts (List.replicate n ' ' ++ cs) := by
    intro n
    induction n with
    | zero => apply h
    | succ n ih => apply SpellsAll.space rfl ih
  cases layout with
  | compact => apply h
  | indented => apply SpellsAll.space rfl (hspaces _)

/-- What stands between a name and its value spells a colon. -/
theorem spellsAll_colon (layout : Layout) :
  SpellsAll [.colon] layout.colon
  := by
  cases layout with
  | compact => apply SpellsAll.one .colon
  | indented => apply SpellsAll.token .colon (.space rfl .nil)

/-- The text of the value spells its tokens on every level. -/
def SpellsValue (layout : Layout) (v : Json) : Prop :=
  ∀ level, SpellsAll v.tokens (layout.value level v)

/-- The text of the elements that follow the first one spells their tokens. -/
theorem spellsAll_moreElements {layout : Layout} {vs : List Json}
    (h : ∀ v ∈ vs, layout.SpellsValue v) (level : Nat) :
  SpellsAll (Json.moreElementTokens vs)
    (layout.moreElements level vs ++ (layout.line level ++ [']']))
  := by
  induction vs with
  | nil => apply spellsAll_line_append layout level (.one .closeArray)
  | cons v vs ih =>
    have hmore := ih fun w hw => h w (List.mem_cons_of_mem v hw)
    have hvalue := spellsAll_line_append layout (level + 1) (h v List.mem_cons_self (level + 1))
    have hall := SpellsAll.token .comma (hvalue.append hmore)
    simpa only [Json.moreElementTokens, moreElements, List.append_assoc, List.cons_append,
      List.nil_append] using hall

/-- The text of the members that follow the first one spells their tokens. -/
theorem spellsAll_moreMembers {layout : Layout} {ms : Named Json}
    (h : ∀ m ∈ ms, layout.SpellsValue m.2) (level : Nat) :
  SpellsAll (Json.moreMemberTokens ms)
    (layout.moreMembers level ms ++ (layout.line level ++ ['}']))
  := by
  induction ms with
  | nil => apply spellsAll_line_append layout level (.one .closeObject)
  | cons m ms ih =>
    obtain ⟨k, v⟩ := m
    have hmore := ih fun w hw => h w (List.mem_cons_of_mem _ hw)
    have hvalue := h (k, v) List.mem_cons_self (level + 1)
    have hmember := SpellsAll.token (Token.spells_written k)
      ((spellsAll_colon layout).append (hvalue.append hmore))
    have hall := SpellsAll.token .comma (spellsAll_line_append layout (level + 1) hmember)
    simpa only [Json.moreMemberTokens, moreMembers, List.append_assoc, List.cons_append,
      List.nil_append] using hall

/-- The text of an array spells its tokens if those of its elements do. -/
theorem spellsValue_arr {layout : Layout} {vs : List Json} (h : ∀ v ∈ vs, layout.SpellsValue v) :
  layout.SpellsValue (.arr vs)
  := by
  intro level
  cases vs with
  | nil => apply SpellsAll.token .openArray (.one .closeArray)
  | cons v vs =>
    have hmore := spellsAll_moreElements (fun w hw => h w (List.mem_cons_of_mem v hw)) level
    have hvalue := spellsAll_line_append layout (level + 1) (h v List.mem_cons_self (level + 1))
    have hall := SpellsAll.token .openArray (hvalue.append hmore)
    simpa only [Json.tokens, Json.elementTokens, value, List.append_assoc, List.cons_append,
      List.nil_append] using hall

/-- The text of an object spells its tokens if those of its values do. -/
theorem spellsValue_obj {layout : Layout} {ms : Named Json}
    (h : ∀ m ∈ ms, layout.SpellsValue m.2) :
  layout.SpellsValue (.obj ms)
  := by
  intro level
  cases ms with
  | nil => apply SpellsAll.token .openObject (.one .closeObject)
  | cons m ms =>
    obtain ⟨k, v⟩ := m
    have hmore := spellsAll_moreMembers (fun w hw => h w (List.mem_cons_of_mem _ hw)) level
    have hvalue := h (k, v) List.mem_cons_self (level + 1)
    have hmember := SpellsAll.token (Token.spells_written k)
      ((spellsAll_colon layout).append (hvalue.append hmore))
    have hall := SpellsAll.token .openObject (spellsAll_line_append layout (level + 1) hmember)
    simpa only [Json.tokens, Json.memberTokens, value, List.append_assoc, List.cons_append,
      List.nil_append] using hall

/-- The text of every value spells its tokens if the whole numbers in it fit and the other numbers
in it are read back. -/
theorem spellsValue_of_fits (layout : Layout) {v : Json} (h : v.Fits)
    (hread : ∀ d ∈ v.doubles, d.ReadsBack) :
  layout.SpellsValue v
  := by
  induction h with
  | null =>
    intro level
    apply SpellsAll.one .null
  | bool value =>
    intro level
    apply SpellsAll.one (Token.spells_bool value)
  | int hfits =>
    intro level
    apply SpellsAll.one (Token.spells_int hfits)
  | double d =>
    intro level
    apply SpellsAll.one (hread d (List.mem_singleton_self d)).spells
  | str s =>
    intro level
    apply SpellsAll.one (Token.spells_written s)
  | arr _ ih =>
    apply spellsValue_arr
    intro v hv
    apply ih v hv
    intro d hd
    apply hread d (Json.mem_doubles_arr.2 ⟨v, hv, hd⟩)
  | obj _ ih =>
    apply spellsValue_obj
    intro m hm
    apply ih m hm
    intro d hd
    apply hread d (Json.mem_doubles_obj.2 ⟨m, hm, hd⟩)

end Layout

namespace Json

/-- The text of a value spells its tokens. -/
theorem Fits.spellsAll_text {v : Json} (h : v.Fits) (hread : ∀ d ∈ v.doubles, d.ReadsBack)
    (layout : Layout) :
  Token.SpellsAll v.tokens (v.text layout).toList
  := by
  rw [text, String.toList_ofList]
  apply layout.spellsValue_of_fits h hread

/-- The tokens of the text of a value are those of the value. -/
theorem Fits.scan_text {v : Json} (h : v.Fits) (hread : ∀ d ∈ v.doubles, d.ReadsBack)
    (layout : Layout) :
  Token.scan (v.text layout).toList = v.tokens
  := (h.spellsAll_text hread layout).scan_eq h.writtenAs_tokens.isValue.apart

end Json

end TextPipeline
