import Mathlib.Data.List.Chain
import TextPipeline.Json.Token
import TextPipeline.Proofs.Json.Numerals
import TextPipeline.Proofs.Json.Strings

/-!
# Spelled tokens

A text spells tokens if it is made up of spellings of them, in their order, with any white space
between them, in front and at the end.  The tokens of the text are then the ones that it spells, as
long as no number comes right after another one, and conversely every text without junk spells its
tokens.  A number of the binary64 format need not be the one that its own text spells, but it is if
it is written with few digits and a small power of ten.
-/

namespace TextPipeline

namespace Token

/-- A text spells a token. -/
inductive Spells : Token → List Char → Prop where
  | openObject : Spells .openObject ['{']
  | closeObject : Spells .closeObject ['}']
  | openArray : Spells .openArray ['[']
  | closeArray : Spells .closeArray [']']
  | comma : Spells .comma [',']
  | colon : Spells .colon [':']
  | null : Spells .null "null".toList
  | affirmed : Spells (.bool true) "true".toList
  | denied : Spells (.bool false) "false".toList
  | number {n : Numeral} {cs : List Char} (h : n.Spells cs) : Spells (ofNumeral n) cs
  | string {ps : List Piece} {cs : List Char} (h : Literal.Spells ps cs) :
      Spells (ofPieces ps) ('"' :: (cs ++ ['"']))

/-- A text spells tokens with white space between them. -/
inductive SpellsAll : List Token → List Char → Prop where
  | nil : SpellsAll [] []
  | space {c : Char} {ts : List Token} {cs : List Char} (hc : isSpace c = true)
      (h : SpellsAll ts cs) : SpellsAll ts (c :: cs)
  | token {t : Token} {ts : List Token} {cs rest : List Char} (ht : Spells t cs)
      (h : SpellsAll ts rest) : SpellsAll (t :: ts) (cs ++ rest)

/-- Whether a token is a number. -/
def isNumber : Token → Bool
  | .number _ | .outOfRange => true
  | _ => false

/-- No number comes right after another one. -/
def Apart (ts : List Token) : Prop :=
  ts.IsChain fun t u => t.isNumber = true → u.isNumber = false

/-! ### Spelling -/

/-- The token of a numeral is a number. -/
theorem isNumber_ofNumeral (n : Numeral) :
  (ofNumeral n).isNumber = true
  := by
  unfold ofNumeral
  split <;> rfl

/-- The words of a truth value spell it. -/
theorem spells_bool (b : Bool) :
  Spells (.bool b) (toString b).toList
  := by
  cases b with
  | true => apply Spells.affirmed
  | false => apply Spells.denied

/-- A whole number that fits is written as a spelling of it. -/
theorem spells_int {i : Int} (h : Numeral.Fits i) :
  Spells (.number (.int i)) (toString i).toList
  := by
  have hspells := Spells.number (Numeral.proper_ofInt i).spells_text
  rw [ofNumeral, Numeral.value_ofInt h, Numeral.text_ofInt] at hspells
  apply hspells

/-- A number of the binary64 format is written as a spelling of the token that its numeral has. -/
theorem spells_ofDouble (d : Double) :
  Spells (ofNumeral (Numeral.ofDouble d)) (jsonStyle.text d)
  := by
  rw [← Numeral.text_ofDouble]
  apply Spells.number (Numeral.proper_ofDouble d).spells_text

/-- A text is written as a spelling of it. -/
theorem spells_written (s : String) :
  Spells (.text s) (Literal.written s.toList)
  := by
  have hspells := Spells.string (Literal.spells_flatMap_escaped s.toList)
  have hpieces : ofPieces (s.toList.map Literal.piece) = .text s := by
    simp only [ofPieces, Literal.join_map_piece, String.ofList_toList]
  rw [hpieces] at hspells
  apply hspells

/-- The spelling of a single token. -/
theorem SpellsAll.one {t : Token} {cs : List Char} (h : Spells t cs) :
  SpellsAll [t] cs
  := by
  have hall := SpellsAll.token h .nil
  rw [List.append_nil] at hall
  apply hall

/-- What spells tokens and what spells further ones spell them all together. -/
theorem SpellsAll.append {ts us : List Token} {cs ds : List Char} (h : SpellsAll ts cs)
    (h' : SpellsAll us ds) :
  SpellsAll (ts ++ us) (cs ++ ds)
  := by
  induction h with
  | nil => apply h'
  | space hc _ ih => apply SpellsAll.space hc ih
  | token ht _ ih =>
    rw [List.append_assoc]
    apply SpellsAll.token ht ih

/-! ### Scanning -/

/-- White space has no tokens. -/
theorem scan_space {c : Char} (h : isSpace c = true) (cs : List Char) :
  scan (c :: cs) = scan cs
  := by
  rw [scan, if_pos h]

/-- The token that a text begins with is the first of its tokens. -/
theorem scan_next {c : Char} {cs rest : List Char} {t : Token} (hspace : isSpace c = false)
    (hnext : next c cs = some (t, rest)) :
  scan (c :: cs) = t :: scan rest
  := by
  rw [scan, if_neg (by simp [hspace])]
  split
  · next hnone =>
    rw [hnone] at hnext
    cases hnext
  · next t' rest' hsome =>
    rw [hsome] at hnext
    cases hnext
    rfl

/-- A text that begins like a number is read as one. -/
theorem next_number {c : Char} (h : c = '-' ∨ c.isDigit = true) (cs : List Char) :
  next c cs = (Numeral.split (c :: cs)).map fun (n, rest) => (ofNumeral n, rest)
  := by
  unfold next
  split <;> simp_all

/-- A spelling of a numeral begins with a minus sign or a digit. -/
theorem exists_eq_cons_of_spells {n : Numeral} {cs : List Char} (h : n.Spells cs) :
  ∃ c rest, cs = c :: rest ∧ (c = '-' ∨ c.isDigit = true)
  := by
  obtain ⟨hproper, hexponent⟩ := h
  obtain ⟨c, ds, hwhole⟩ := List.exists_cons_of_ne_nil hproper.whole.1
  have hdigit : c.isDigit = true := by
    apply hproper.whole.2 c
    simp [hwhole]
  rw [Numeral.signText]
  split
  · exact ⟨'-', _, rfl, .inl rfl⟩
  · rw [hwhole]
    exact ⟨c, _, rfl, .inr hdigit⟩

/-- A spelling of a token is scanned as the token, if a number is not carried on by what
follows. -/
theorem Spells.scan_append {t : Token} {cs rest : List Char} (h : Spells t cs)
    (hrest : t.isNumber = true → Numeral.EndsNumber rest) :
  scan (cs ++ rest) = t :: scan rest
  := by
  cases h with
  | @number n cs h =>
    obtain ⟨c, cs, rfl, hfront⟩ := exists_eq_cons_of_spells h
    have hsplit := h.split_append (hrest (isNumber_ofNumeral n))
    rw [List.cons_append] at hsplit ⊢
    apply scan_next
    · obtain rfl | hdigit := hfront
      · rfl
      · simp only [isSpace, Bool.or_eq_false_iff, decide_eq_false_iff_not]
        refine ⟨⟨⟨?_, ?_⟩, ?_⟩, ?_⟩ <;> rintro rfl <;> simp at hdigit
    · rw [next_number hfront, hsplit]
      rfl
  | string h =>
    rw [List.cons_append, List.append_assoc, List.singleton_append]
    apply scan_next rfl
    rw [next, h.split_append]
    rfl
  | _ => apply scan_next rfl rfl

/-- What begins with no number does not carry on a number. -/
theorem SpellsAll.endsNumber {ts : List Token} {cs : List Char} (h : SpellsAll ts cs)
    (hhead : ∀ t ∈ ts.head?, t.isNumber = false) :
  Numeral.EndsNumber cs
  := by
  cases h with
  | nil => simp [Numeral.EndsNumber]
  | @space c ts cs hc h =>
    simp only [isSpace, Bool.or_eq_true, decide_eq_true_eq] at hc
    obtain ((rfl | rfl) | rfl) | rfl := hc <;> simp [Numeral.EndsNumber]
  | @token t ts cs rest ht h =>
    have hnumber := hhead t rfl
    cases ht with
    | @number n cs hn =>
      rw [isNumber_ofNumeral] at hnumber
      cases hnumber
    | _ => simp [Numeral.EndsNumber]

/-- The tokens of a text are the ones that it spells. -/
theorem SpellsAll.scan_eq {ts : List Token} {cs : List Char} (h : SpellsAll ts cs)
    (hapart : Apart ts) :
  scan cs = ts
  := by
  induction h with
  | nil => rw [scan]
  | space hc _ ih => rw [scan_space hc, ih hapart]
  | @token t ts cs rest ht hall ih =>
    -- only a number could be carried on by what follows, and no number follows it
    obtain ⟨hhead, htail⟩ := List.isChain_cons.1 hapart
    rw [ht.scan_append, ih htail]
    intro hnumber
    apply hall.endsNumber
    intro u hu
    apply hhead u hu hnumber

/-! ### What was scanned -/

/-- What was read as a word spells it. -/
theorem exists_spells_of_word {cs rest : List Char} {t : Token} (h : word cs = some (t, rest)) :
  ∃ front, Spells t front ∧ cs = front ++ rest
  := by
  simp only [word] at h
  split at h
  · cases h
    exact ⟨_, .null, rfl⟩
  · cases h
    exact ⟨_, .affirmed, rfl⟩
  · cases h
    exact ⟨_, .denied, rfl⟩
  · cases h

/-- What was read as a token spells it. -/
theorem exists_spells_of_next {c : Char} {cs rest : List Char} {t : Token}
    (h : next c cs = some (t, rest)) :
  ∃ front, Spells t front ∧ c :: cs = front ++ rest
  := by
  simp only [next] at h
  split at h
  case h_1 =>
    cases h
    exact ⟨_, .openObject, rfl⟩
  case h_2 =>
    cases h
    exact ⟨_, .closeObject, rfl⟩
  case h_3 =>
    cases h
    exact ⟨_, .openArray, rfl⟩
  case h_4 =>
    cases h
    exact ⟨_, .closeArray, rfl⟩
  case h_5 =>
    cases h
    exact ⟨_, .comma, rfl⟩
  case h_6 =>
    cases h
    exact ⟨_, .colon, rfl⟩
  case h_7 =>
    simp only [Option.map_eq_some_iff, Prod.mk.injEq, Prod.exists] at h
    obtain ⟨ps, after, hread, rfl, rfl⟩ := h
    obtain ⟨front, hspells, rfl⟩ := Literal.exists_spells_of_split hread
    refine ⟨_, .string hspells, ?_⟩
    simp only [List.cons_append, List.append_assoc, List.nil_append]
  case h_8 =>
    split at h
    · simp only [Option.map_eq_some_iff, Prod.mk.injEq, Prod.exists] at h
      obtain ⟨n, after, hread, rfl, rfl⟩ := h
      obtain ⟨front, hspells, hfront⟩ := Numeral.exists_spells_of_split hread
      exact ⟨front, .number hspells, hfront⟩
    · apply exists_spells_of_word h

/-- A text without junk spells its tokens. -/
theorem spellsAll_scan {cs : List Char} (h : .junk ∉ scan cs) :
  SpellsAll (scan cs) cs
  := by
  fun_induction scan cs with
  | case1 => apply SpellsAll.nil
  | case2 c cs hspace ih => apply SpellsAll.space hspace (ih h)
  | case3 c cs hspace hnext => simp at h
  | case4 c cs hspace t rest hnext ih =>
    obtain ⟨front, hspells, hfront⟩ := exists_spells_of_next hnext
    rw [hfront]
    apply SpellsAll.token hspells
    apply ih
    intro hjunk
    apply h (List.mem_cons_of_mem t hjunk)

end Token

/-! ### Numbers that are read back -/

namespace Double

/-- The number is read back from the text that it is written as. -/
def ReadsBack (d : Double) : Prop :=
  Token.scan (jsonStyle.text d) = [.number (.double d)]

/-- A number is read back exactly if its numeral stands for it. -/
theorem readsBack_iff {d : Double} :
  d.ReadsBack ↔ (Numeral.ofDouble d).value = some (.double d)
  := by
  have hscan : Token.scan (jsonStyle.text d) = [Token.ofNumeral (Numeral.ofDouble d)] := by
    apply (Token.SpellsAll.one (Token.spells_ofDouble d)).scan_eq
    apply List.isChain_singleton
  rw [ReadsBack, hscan, List.cons.injEq, Token.ofNumeral]
  split
  · next v hvalue => simp [hvalue]
  · next hvalue => simp [hvalue]

/-- A number that is read back is written as a spelling of it. -/
theorem ReadsBack.spells {d : Double} (h : d.ReadsBack) :
  Token.Spells (.number (.double d)) (jsonStyle.text d)
  := by
  have hspells := Token.spells_ofDouble d
  rw [Token.ofNumeral, readsBack_iff.1 h] at hspells
  apply hspells

/-- A number is read back if it is written with few digits and with a small power of ten. -/
theorem readsBack_of_short {d : Double} (hdigits : (Numeral.ofDouble d).decimal.digits < 2 ^ 53)
    (hexponent : (Numeral.ofDouble d).decimal.exponent.natAbs ≤ 22) :
  d.ReadsBack
  := by
  rw [readsBack_iff, Numeral.value_ofDouble hdigits hexponent]

/-- The zeros are read back. -/
theorem readsBack_zero (negative : Bool) :
  (zero negative).ReadsBack
  := by
  cases negative <;> apply readsBack_of_short <;> decide +kernel

end Double

end TextPipeline
