import TextPipeline.Json.Token

/-!
# Written strings

A string spells its pieces: every character that needs no escape may stand for itself, and each
escape stands for the character or the unit of sixteen bits that it names.  Pieces are read from
every spelling of theirs.  Every text can be written as a string: each of its characters is
written as a piece, either as a character or, where it is a control character without a short
escape, as a unit of sixteen bits, and joined the pieces make up the text.
-/

namespace TextPipeline

namespace Literal

/-- The piece that a character is written as. -/
def piece (c : Char) : Piece :=
  match c with
  | '\x08' | '\x0c' | '\n' | '\r' | '\t' => .char c
  | c => if c.val < 0x20 then .unit c.toNat else .char c

/-- What stands between the quotes of a string spells the pieces of the string. -/
inductive Spells : List Piece → List Char → Prop where
  | nil : Spells [] []
  | char {c : Char} {ps : List Piece} {cs : List Char} (hquote : c ≠ '"') (hslash : c ≠ '\\')
      (hplain : ¬c.val < 0x20) (h : Spells ps cs) : Spells (.char c :: ps) (c :: cs)
  | short {e c : Char} {ps : List Piece} {cs : List Char} (he : shortEscape e = some c)
      (h : Spells ps cs) : Spells (.char c :: ps) ('\\' :: e :: cs)
  | unit {a b c d : Char} {n : Nat} {ps : List Piece} {cs : List Char}
      (hn : unitValue a b c d = some n) (h : Spells ps cs) :
      Spells (.unit n :: ps) ('\\' :: 'u' :: a :: b :: c :: d :: cs)

/-- The digit of a number below sixteen has its value. -/
theorem hexValue_hexDigit {n : Nat} (h : n < 16) :
  hexValue (hexDigit n) = some n
  := by
  have hall : ∀ m < 16, hexValue (hexDigit m) = some m := by decide
  apply hall n h

/-- The four digits of a control character have its value. -/
theorem unitValue_control {c : Char} (h : c.val < 0x20) :
  unitValue '0' '0' (hexDigit (c.toNat / 16)) (hexDigit (c.toNat % 16)) = some c.toNat
  := by
  have hc : c.toNat < 0x20 := h
  have hzero : hexValue '0' = some 0 := by decide
  rw [unitValue, hzero, hexValue_hexDigit (by omega), hexValue_hexDigit (by omega)]
  simp only [Option.some.injEq]
  omega

/-- A character that needs no escape is read as it stands. -/
theorem split_char {c : Char} (hquote : c ≠ '"') (hslash : c ≠ '\\') (hplain : ¬c.val < 0x20)
    (rest : List Char) :
  split (c :: rest) = (split rest).map fun (ps, after) => (.char c :: ps, after)
  := by
  rw [split]
  · rw [if_neg hplain]
    cases split rest <;> rfl
  · apply hquote
  · intro _ _ _ _ _ hc
    apply absurd hc hslash
  · intro _ _ hc
    apply absurd hc hslash

/-- A short escape is read as the character that it stands for. -/
theorem split_short {e c : Char} (h : shortEscape e = some c) (rest : List Char) :
  split ('\\' :: e :: rest) = (split rest).map fun (ps, after) => (.char c :: ps, after)
  := by
  rw [split]
  · rw [h]
    cases split rest <;> rfl
  · rintro _ _ _ _ _ rfl
    simp [shortEscape] at h

/-- An escape by number is read as its unit. -/
theorem split_unit {a b c d : Char} {n : Nat} (h : unitValue a b c d = some n)
    (rest : List Char) :
  split ('\\' :: 'u' :: a :: b :: c :: d :: rest)
    = (split rest).map fun (ps, after) => (.unit n :: ps, after)
  := by
  rw [split, h]
  cases split rest <;> rfl

/-- Pieces are read from their spelling, up to the closing quote. -/
theorem Spells.split_append {ps : List Piece} {cs : List Char} (h : Spells ps cs)
    (rest : List Char) :
  split (cs ++ '"' :: rest) = some (ps, rest)
  := by
  induction h with
  | nil => rfl
  | char hquote hslash hplain _ ih =>
    rw [List.cons_append, split_char hquote hslash hplain, ih]
    rfl
  | short he _ ih =>
    rw [List.cons_append, List.cons_append, split_short he, ih]
    rfl
  | unit hn _ ih =>
    simp only [List.cons_append]
    rw [split_unit hn, ih]
    rfl

/-- What was read up to the closing quote spells the pieces. -/
theorem exists_spells_of_split {cs after : List Char} {ps : List Piece}
    (h : split cs = some (ps, after)) :
  ∃ front, Spells ps front ∧ cs = front ++ '"' :: after
  := by
  fun_induction split cs generalizing ps after with
  | case1 => cases h
  | case2 rest =>
    cases h
    exact ⟨[], .nil, rfl⟩
  | case3 a b c d rest n ps' after' hsplit hunit ih =>
    cases h
    obtain ⟨front, hspells, rfl⟩ := ih hsplit
    exact ⟨_, .unit hunit hspells, rfl⟩
  | case5 e rest hnumber c ps' after' hsplit hshort ih =>
    cases h
    obtain ⟨front, hspells, rfl⟩ := ih hsplit
    exact ⟨_, .short hshort hspells, rfl⟩
  | case8 c rest hquote hnumber hescape hplain ps' after' hsplit ih =>
    cases h
    obtain ⟨front, hspells, rfl⟩ := ih hsplit
    -- a backslash with nothing behind it would leave the string without an end
    have hslash : c ≠ '\\' := by
      rintro rfl
      cases front <;> apply hescape _ _ rfl rfl
    exact ⟨_, .char hquote hslash hplain hspells, rfl⟩
  | _ => cases h

/-- A character is written as a spelling of its piece. -/
theorem Spells.escaped_append (c : Char) {ps : List Piece} {cs : List Char} (h : Spells ps cs) :
  Spells (piece c :: ps) (escaped c ++ cs)
  := by
  unfold escaped
  split
  case h_8 _ hquote hslash h8 h12 hn hr ht =>
    have hpiece : piece c = if c.val < 0x20 then .unit c.toNat else .char c := by
      unfold piece
      split <;> simp_all
    rw [hpiece]
    split
    · next hcontrol => apply Spells.unit (unitValue_control hcontrol) h
    · next hplain => apply Spells.char hquote hslash hplain h
  all_goals apply Spells.short rfl h

/-- A text is written as a spelling of its pieces. -/
theorem spells_flatMap_escaped (cs : List Char) :
  Spells (cs.map piece) (cs.flatMap escaped)
  := by
  induction cs with
  | nil => apply Spells.nil
  | cons c cs ih => apply ih.escaped_append

/-- The piece of a character is joined to it. -/
theorem join_piece_cons (c : Char) (ps : List Piece) :
  join (piece c :: ps) = (join ps).map (c :: ·)
  := by
  have hpiece : piece c = .char c ∨ piece c = .unit c.toNat ∧ c.toNat < 0x20 := by
    unfold piece
    split
    case h_6 =>
      split
      · next hcontrol => apply Or.inr (And.intro rfl hcontrol)
      · apply Or.inl rfl
    all_goals apply Or.inl rfl
  obtain hchar | ⟨hunit, hcontrol⟩ := hpiece
  · rw [hchar, join]
  · have htrailing : isTrailing c.toNat = false := by
      simp only [isTrailing, Bool.and_eq_false_iff, decide_eq_false_iff_not]
      omega
    have hleading : isLeading c.toNat = false := by
      simp only [isLeading, Bool.and_eq_false_iff, decide_eq_false_iff_not]
      omega
    rw [hunit, join.eq_def]
    simp only [htrailing, hleading, Bool.false_eq_true, if_false, Char.ofNat_toNat]

/-- The pieces of a text are joined to the text. -/
theorem join_map_piece (cs : List Char) :
  join (cs.map piece) = some cs
  := by
  induction cs with
  | nil => rfl
  | cons c cs ih =>
    rw [List.map_cons, join_piece_cons, ih]
    rfl

end Literal

end TextPipeline
