import TextPipeline.Json.Numeral
import TextPipeline.Proofs.Decimal.ReadBack
import TextPipeline.Proofs.Decimal.Stepwise

/-!
# Written numbers

A numeral has several spellings, which differ in the letter of the exponent and in its sign and
zeros.  It is read off the front of a text from each of them, as long as nothing follows that would
carry on a number.  Whole numbers that fit 64 bits are written as numerals that stand for them.  A
number of the binary64 format is written as a numeral to which it is the nearest one, and a numeral
with few digits and a small power of ten stands for the number nearest to it.
-/

namespace TextPipeline

/-! ### Digits -/

/-- The value of digits is the one that the library gives them. -/
theorem digitsValue_eq (ds : List Char) :
  digitsValue ds = Nat.ofDigitChars 10 ds 0
  := Nat.ofDigitChars_eq_foldl.symm

/-- The digits of a number have its value. -/
theorem digitsValue_toDigits (n : Nat) :
  digitsValue (Nat.toDigits 10 n) = n
  := by
  rw [digitsValue_eq, Nat.ofDigitChars_ten_toDigits]

/-- Zeros at the end of digits multiply their value. -/
theorem digitsValue_append_zeros (ds : List Char) (k : Nat) :
  digitsValue (ds ++ List.replicate k '0') = digitsValue ds * 10 ^ k
  := by
  rw [digitsValue_eq, digitsValue_eq, Nat.ofDigitChars_append, Nat.ofDigitChars_replicate_zero,
    Nat.mul_comm]

/-- Zeros in front of digits change nothing. -/
theorem digitsValue_zeros_append (k : Nat) (ds : List Char) :
  digitsValue (List.replicate k '0' ++ ds) = digitsValue ds
  := by
  rw [digitsValue_eq, digitsValue_eq, Nat.ofDigitChars_append, Nat.ofDigitChars_replicate_zero,
    Nat.mul_zero]

/-- Only the digits of zero begin with a zero. -/
theorem eq_zero_of_head?_toDigits {n : Nat} (h : (Nat.toDigits 10 n).head? = some '0') :
  n = 0
  := by
  induction n using Nat.strongRecOn with
  | ind n ih =>
    by_cases hsmall : n < 10
    · have hdigit : ∀ m < 10, [Nat.digitChar m].head? = some '0' → m = 0 := by decide
      rw [Nat.toDigits_of_lt_base hsmall] at h
      apply hdigit n hsmall h
    · rw [Nat.toDigits_of_base_le (by decide) (by omega), List.head?_append] at h
      have hfront : (Nat.toDigits 10 (n / 10)).head? = some '0' := by
        cases hd : Nat.toDigits 10 (n / 10) with
        | nil => exact absurd hd Nat.toDigits_ne_nil
        | cons c cs =>
          rw [hd] at h
          apply h
      have := ih (n / 10) (by omega) hfront
      omega

namespace Numeral

/-! ### Reading what was written -/

/-- What follows a number does not carry it on. -/
def EndsNumber (rest : List Char) : Prop :=
  ∀ c ∈ rest.head?, c.isDigit = false ∧ c ≠ '.' ∧ c ≠ 'e' ∧ c ≠ 'E'

/-- Digits, at least one of them. -/
def IsDigits (ds : List Char) : Prop :=
  ds ≠ [] ∧ ∀ c ∈ ds, c.isDigit = true

/-- The exponent as it is written, always with a sign. -/
def exponentText : Int → List Char
  | .ofNat k => 'e' :: '+' :: Nat.toDigits 10 k
  | .negSucc k => 'e' :: '-' :: Nat.toDigits 10 (k + 1)

/-- The fraction as it is written. -/
def fractionText (fraction : Option (List Char)) : List Char :=
  match fraction with
  | some ds => '.' :: ds
  | none => []

/-- The sign as it is written. -/
def signText (negative : Bool) : List Char :=
  if negative then ['-'] else []

/-- The numeral as it is written. -/
def text (n : Numeral) : List Char :=
  signText n.negative ++ (n.whole ++ (fractionText n.fraction ++
    (n.exponent.map exponentText).getD []))

/-- The parts of the numeral are digits, and those before the point begin with no zero that could
be left out. -/
structure Proper (n : Numeral) : Prop where
  whole : IsDigits n.whole
  lead : n.whole.head? = some '0' → n.whole = ['0']
  fraction : ∀ ds ∈ n.fraction, IsDigits ds

/-- A text spells an exponent, or the lack of one. -/
inductive SpellsExponent : Option Int → List Char → Prop where
  | none : SpellsExponent none []
  | plain {c : Char} {ds : List Char} (hc : c = 'e' ∨ c = 'E') (h : IsDigits ds) :
      SpellsExponent (some (digitsValue ds)) (c :: ds)
  | plus {c : Char} {ds : List Char} (hc : c = 'e' ∨ c = 'E') (h : IsDigits ds) :
      SpellsExponent (some (digitsValue ds)) (c :: '+' :: ds)
  | minus {c : Char} {ds : List Char} (hc : c = 'e' ∨ c = 'E') (h : IsDigits ds) :
      SpellsExponent (some (-(digitsValue ds : Int))) (c :: '-' :: ds)

/-- A text spells a numeral. -/
inductive Spells : Numeral → List Char → Prop where
  | mk {n : Numeral} {exponent : List Char} (h : n.Proper)
      (hexponent : SpellsExponent n.exponent exponent) :
      Spells n (signText n.negative ++ (n.whole ++ (fractionText n.fraction ++ exponent)))

/-- The digits of a number are digits. -/
theorem isDigits_toDigits (n : Nat) :
  IsDigits (Nat.toDigits 10 n)
  := by
  constructor
  · apply Nat.toDigits_ne_nil
  · intro c hc
    apply Nat.isDigit_of_mem_toDigits _ _ hc <;> decide

/-- Digits with zeros behind them are digits. -/
theorem IsDigits.append_zeros {ds : List Char} (h : IsDigits ds) (k : Nat) :
  IsDigits (ds ++ List.replicate k '0')
  := by
  constructor
  · simp [h.1]
  · intro c hc
    obtain hc | hc := List.mem_append.1 hc
    · apply h.2 c hc
    · rw [List.eq_of_mem_replicate hc]
      rfl

/-- Digits with zeros in front of them are digits. -/
theorem IsDigits.zeros_append {ds : List Char} (h : IsDigits ds) (k : Nat) :
  IsDigits (List.replicate k '0' ++ ds)
  := by
  constructor
  · simp [h.1]
  · intro c hc
    obtain hc | hc := List.mem_append.1 hc
    · rw [List.eq_of_mem_replicate hc]
      rfl
    · apply h.2 c hc

/-- The first digits are digits. -/
theorem IsDigits.take {ds : List Char} (h : IsDigits ds) (k : Nat) :
  IsDigits (ds.take (k + 1))
  := by
  constructor
  · simp [h.1]
  · intro c hc
    apply h.2 c (List.mem_of_mem_take hc)

/-- The digits behind the first ones are digits, unless there are none. -/
theorem IsDigits.drop {ds : List Char} (h : IsDigits ds) {k : Nat} (hk : k < ds.length) :
  IsDigits (ds.drop k)
  := by
  constructor
  · simp [hk]
  · intro c hc
    apply h.2 c (List.mem_of_mem_drop hc)

/-- Digits are read up to the first character that is none. -/
theorem digits_append {ds rest : List Char} (h : IsDigits ds)
    (hrest : ∀ c ∈ rest.head?, c.isDigit = false) :
  digits (ds ++ rest) = some (ds, rest)
  := by
  obtain ⟨hne, hall⟩ := h
  have htake : (ds ++ rest).takeWhile Char.isDigit = ds := by
    rw [List.takeWhile_append_of_pos hall]
    cases rest with
    | nil => simp
    | cons c rest => simp [hrest c rfl]
  have hdrop : (ds ++ rest).dropWhile Char.isDigit = rest := by
    rw [List.dropWhile_append_of_pos hall]
    cases rest with
    | nil => rfl
    | cons c rest => simp [hrest c rfl]
  simp [digits, htake, hdrop, hne]

/-- The digits before the point are read as they were written. -/
theorem wholePart_append {n : Numeral} (h : n.Proper) {rest : List Char}
    (hrest : ∀ c ∈ rest.head?, c.isDigit = false) :
  wholePart (n.whole ++ rest) = some (n.whole, rest)
  := by
  rw [wholePart, digits_append h.whole hrest]
  split
  · next c d hfound =>
    have hwhole := (Prod.mk.inj (Option.some.inj hfound)).1
    have hlead := h.lead
    rw [hwhole] at hlead
    simp at hlead
  · rfl

/-- The fraction is read as it was written. -/
theorem fractionPart_append {n : Numeral} (h : n.Proper) {rest : List Char}
    (hrest : ∀ c ∈ rest.head?, c.isDigit = false ∧ c ≠ '.') :
  fractionPart (fractionText n.fraction ++ rest) = some (n.fraction, rest)
  := by
  have hproper := h.fraction
  cases hfraction : n.fraction with
  | none =>
    rw [fractionText, List.nil_append, fractionPart]
    rintro after rfl
    apply (hrest '.' rfl).2 rfl
  | some ds =>
    rw [fractionText, List.cons_append, fractionPart, digits_append (hproper ds hfraction)]
    · rfl
    · intro c hc
      apply (hrest c hc).1

/-- The value of an exponent is read from its digits, with the sign in front of them. -/
theorem signedExponent_append {ds rest : List Char} (h : IsDigits ds)
    (hrest : ∀ c ∈ rest.head?, c.isDigit = false) :
  signedExponent (ds ++ rest) = some ((digitsValue ds : Int), rest) ∧
    signedExponent ('+' :: (ds ++ rest)) = some ((digitsValue ds : Int), rest) ∧
    signedExponent ('-' :: (ds ++ rest)) = some (-(digitsValue ds : Int), rest)
  := by
  have hdigits := digits_append h hrest
  obtain ⟨c, cs, hcons⟩ := List.exists_cons_of_ne_nil h.1
  have hfirst : c.isDigit = true := h.2 c (by simp [hcons])
  refine ⟨?_, ?_, ?_⟩
  · rw [signedExponent, hdigits]
    · rfl
    all_goals
      intro after hfront
      rw [hcons] at hfront
      obtain ⟨rfl, -⟩ := List.cons.inj hfront
      simp at hfirst
  · rw [signedExponent, hdigits]
    rfl
  · rw [signedExponent, hdigits]
    rfl

/-- The exponent is read from its spelling. -/
theorem SpellsExponent.exponentPart_append {exponent : Option Int} {cs rest : List Char}
    (h : SpellsExponent exponent cs) (hrest : EndsNumber rest) :
  exponentPart (cs ++ rest) = some (exponent, rest)
  := by
  have hdigit : ∀ c ∈ rest.head?, c.isDigit = false := by
    intro c hc
    apply (hrest c hc).1
  cases h with
  | none =>
    cases rest with
    | nil => rfl
    | cons c rest =>
      have hc := (hrest c rfl).2.2
      simp [exponentPart, hc.1, hc.2]
  | plain hc h =>
    rw [List.cons_append, exponentPart, if_pos hc, (signedExponent_append h hdigit).1]
    rfl
  | plus hc h =>
    rw [List.cons_append, List.cons_append, exponentPart, if_pos hc,
      (signedExponent_append h hdigit).2.1]
    rfl
  | minus hc h =>
    rw [List.cons_append, List.cons_append, exponentPart, if_pos hc,
      (signedExponent_append h hdigit).2.2]
    rfl

/-- An exponent, or what follows a number without one, begins with no digit and no point. -/
theorem SpellsExponent.head_append {exponent : Option Int} {cs rest : List Char}
    (h : SpellsExponent exponent cs) (hrest : EndsNumber rest) :
  ∀ c ∈ (cs ++ rest).head?, c.isDigit = false ∧ c ≠ '.'
  := by
  have hletter : ∀ c : Char, c = 'e' ∨ c = 'E' → c.isDigit = false ∧ c ≠ '.' := by
    rintro c (rfl | rfl) <;> decide
  cases h with
  | none =>
    intro c hc
    obtain ⟨hdigit, hpoint, -⟩ := hrest c hc
    apply And.intro hdigit hpoint
  | plain hc => simp [hletter _ hc]
  | plus hc => simp [hletter _ hc]
  | minus hc => simp [hletter _ hc]

/-- A fraction, or what follows the digits before the point without one, begins with no digit. -/
theorem head_fraction (fraction : Option (List Char)) {rest : List Char}
    (hrest : ∀ c ∈ rest.head?, c.isDigit = false ∧ c ≠ '.') :
  ∀ c ∈ (fractionText fraction ++ rest).head?, c.isDigit = false
  := by
  cases fraction with
  | none =>
    intro c hc
    apply (hrest c hc).1
  | some ds => simp [fractionText]

/-- A numeral is read from its spelling, apart from its sign. -/
theorem unsigned_append {n : Numeral} (h : n.Proper) {exponent rest : List Char}
    (hexponent : SpellsExponent n.exponent exponent) (hrest : EndsNumber rest) :
  unsigned n.negative (n.whole ++ (fractionText n.fraction ++ (exponent ++ rest)))
    = some (n, rest)
  := by
  have hhead := hexponent.head_append hrest
  simp only [unsigned, wholePart_append h (head_fraction n.fraction hhead),
    fractionPart_append h hhead, hexponent.exponentPart_append hrest, Option.bind_eq_bind,
    Option.bind_some]
  rfl

/-- A numeral is read from its spelling. -/
theorem Spells.split_append {n : Numeral} {cs rest : List Char} (h : n.Spells cs)
    (hrest : EndsNumber rest) :
  split (cs ++ rest) = some (n, rest)
  := by
  obtain ⟨hproper, hexponent⟩ := h
  have hread := unsigned_append hproper hexponent hrest
  obtain ⟨hne, hall⟩ := hproper.whole
  rw [List.append_assoc, List.append_assoc, List.append_assoc]
  cases hnegative : n.negative with
  | true =>
    rw [hnegative] at hread
    apply hread
  | false =>
    rw [hnegative] at hread
    obtain ⟨c, ds, hwhole⟩ := List.exists_cons_of_ne_nil hne
    rw [signText, if_neg (by decide), List.nil_append, hwhole, List.cons_append, split]
    · rw [← List.cons_append, ← hwhole]
      apply hread
    · rintro after hfront
      obtain ⟨rfl, -⟩ := List.cons.inj hfront
      have hdigit := hall '-' (by simp [hwhole])
      simp at hdigit

/-- The exponent is written as one of its spellings. -/
theorem spellsExponent_text (exponent : Option Int) :
  SpellsExponent exponent ((exponent.map exponentText).getD [])
  := by
  match exponent with
  | none => apply SpellsExponent.none
  | some (.ofNat k) =>
    have hplus := SpellsExponent.plus (c := 'e') (.inl rfl) (isDigits_toDigits k)
    rw [digitsValue_toDigits] at hplus
    apply hplus
  | some (.negSucc k) =>
    have hminus := SpellsExponent.minus (c := 'e') (.inl rfl) (isDigits_toDigits (k + 1))
    rw [digitsValue_toDigits] at hminus
    apply hminus

/-- A proper numeral is written as one of its spellings. -/
theorem Proper.spells_text {n : Numeral} (h : n.Proper) :
  n.Spells n.text
  := Spells.mk h (spellsExponent_text n.exponent)

/-! ### What was read -/

/-- What was read as digits is digits. -/
theorem eq_append_of_digits {cs ds after : List Char} (h : digits cs = some (ds, after)) :
  IsDigits ds ∧ cs = ds ++ after
  := by
  simp only [digits] at h
  split at h
  · cases h
  · next hne =>
    cases h
    refine ⟨⟨?_, ?_⟩, List.takeWhile_append_dropWhile.symm⟩
    · simpa using hne
    · apply List.all_eq_true.1 List.all_takeWhile

/-- What was read before the point is digits that begin with no zero that could be left out. -/
theorem eq_append_of_wholePart {cs ds after : List Char} (h : wholePart cs = some (ds, after)) :
  IsDigits ds ∧ (ds.head? = some '0' → ds = ['0']) ∧ cs = ds ++ after
  := by
  simp only [wholePart] at h
  split at h
  · cases h
  · next hlead =>
    obtain ⟨hdigits, happend⟩ := eq_append_of_digits h
    refine ⟨hdigits, ?_, happend⟩
    intro hhead
    rcases ds with _ | ⟨c, _ | ⟨d, ds⟩⟩
    · cases hhead
    · cases hhead
      rfl
    · cases hhead
      cases hlead d ds after h

/-- What was read as a fraction is written as one. -/
theorem eq_append_of_fractionPart {cs after : List Char} {fraction : Option (List Char)}
    (h : fractionPart cs = some (fraction, after)) :
  (∀ ds ∈ fraction, IsDigits ds) ∧ cs = fractionText fraction ++ after
  := by
  simp only [fractionPart] at h
  split at h
  · simp only [Option.map_eq_some_iff, Prod.mk.injEq, Prod.exists] at h
    obtain ⟨ds, after, hread, rfl, rfl⟩ := h
    obtain ⟨hdigits, rfl⟩ := eq_append_of_digits hread
    simp [hdigits, fractionText]
  · cases h
    simp [fractionText]

/-- What was read behind the letter of an exponent spells the exponent. -/
theorem exists_spellsExponent_of_signedExponent {cs after : List Char} {e : Int}
    (h : signedExponent cs = some (e, after)) {c : Char} (hc : c = 'e' ∨ c = 'E') :
  ∃ front, SpellsExponent (some e) (c :: front) ∧ cs = front ++ after
  := by
  simp only [signedExponent] at h
  split at h <;> simp only [Option.map_eq_some_iff, Prod.mk.injEq, Prod.exists] at h <;>
    obtain ⟨ds, after, hread, rfl, rfl⟩ := h <;>
    obtain ⟨hdigits, rfl⟩ := eq_append_of_digits hread
  · exact ⟨_, .minus hc hdigits, rfl⟩
  · exact ⟨_, .plus hc hdigits, rfl⟩
  · exact ⟨_, .plain hc hdigits, rfl⟩

/-- What was read as an exponent spells it. -/
theorem exists_spellsExponent_of_exponentPart {cs after : List Char} {exponent : Option Int}
    (h : exponentPart cs = some (exponent, after)) :
  ∃ front, SpellsExponent exponent front ∧ cs = front ++ after
  := by
  simp only [exponentPart] at h
  split at h
  · split at h
    · next hc =>
      simp only [Option.map_eq_some_iff, Prod.mk.injEq, Prod.exists] at h
      obtain ⟨e, after, hread, rfl, rfl⟩ := h
      obtain ⟨front, hspells, rfl⟩ := exists_spellsExponent_of_signedExponent hread hc
      exact ⟨_, hspells, rfl⟩
    · cases h
      exact ⟨_, .none, rfl⟩
  · cases h
    exact ⟨_, .none, rfl⟩

/-- What was read as a numeral without a sign spells it behind its sign. -/
theorem exists_spells_of_unsigned {negative : Bool} {cs after : List Char} {n : Numeral}
    (h : unsigned negative cs = some (n, after)) :
  ∃ front, n.Spells (signText negative ++ front) ∧ cs = front ++ after
  := by
  simp only [unsigned, Option.bind_eq_bind, Option.bind_eq_some_iff, Option.pure_def,
    Option.some.injEq, Prod.mk.injEq, Prod.exists] at h
  obtain ⟨whole, _, hwhole, fraction, _, hfraction, exponent, _, hexponent, rfl, rfl⟩ := h
  obtain ⟨hdigits, hlead, rfl⟩ := eq_append_of_wholePart hwhole
  obtain ⟨hproper, rfl⟩ := eq_append_of_fractionPart hfraction
  obtain ⟨front, hspells, rfl⟩ := exists_spellsExponent_of_exponentPart hexponent
  refine ⟨_, .mk ⟨hdigits, hlead, hproper⟩ hspells, ?_⟩
  simp only [List.append_assoc]

/-- What was read as a numeral spells it. -/
theorem exists_spells_of_split {cs after : List Char} {n : Numeral}
    (h : split cs = some (n, after)) :
  ∃ front, n.Spells front ∧ cs = front ++ after
  := by
  simp only [split] at h
  split at h
  · obtain ⟨front, hspells, rfl⟩ := exists_spells_of_unsigned h
    exact ⟨_, hspells, rfl⟩
  · obtain ⟨front, hspells, rfl⟩ := exists_spells_of_unsigned h
    exact ⟨_, hspells, rfl⟩

/-! ### Whole numbers -/

/-- The numeral of a whole number. -/
def ofInt (i : Int) : Numeral :=
  ⟨i < 0, Nat.toDigits 10 i.natAbs, none, none⟩

/-- A number that fits 64 bits with or without a sign. -/
def Fits (i : Int) : Prop :=
  -0x8000000000000000 ≤ i ∧ i < 0x10000000000000000

/-- The numeral of a whole number is proper. -/
theorem proper_ofInt (i : Int) :
  (ofInt i).Proper
  := by
  constructor
  · apply isDigits_toDigits
  · intro hlead
    have hzero := eq_zero_of_head?_toDigits hlead
    rw [ofInt, hzero, Nat.toDigits_zero]
  · simp [ofInt]

/-- The numeral of a whole number is how it is written. -/
theorem text_ofInt (i : Int) :
  (ofInt i).text = (toString i).toList
  := by
  cases i with
  | ofNat n =>
    have htext : toString (Int.ofNat n) = toString n := rfl
    rw [htext, Nat.toString_eq_ofList_toDigits, String.toList_ofList, text, ofInt]
    simp [signText, fractionText]
  | negSucc n =>
    have hsign : Int.negSucc n < 0 := Int.negSucc_lt_zero n
    have htext : toString (Int.negSucc n) = "-" ++ toString (n + 1) := rfl
    rw [htext, String.toList_append, Nat.toString_eq_ofList_toDigits, String.toList_ofList, text,
      ofInt]
    simp [hsign, signText, fractionText]

/-- The numeral of a whole number that fits stands for it. -/
theorem value_ofInt {i : Int} (h : Fits i) :
  (ofInt i).value = some (.int i)
  := by
  obtain ⟨hlow, hhigh⟩ := h
  have hint : (ofInt i).int? = some i := by
    rw [int?]
    simp only [ofInt, digitsValue_toDigits, Option.isSome_none, Bool.or_self, Bool.false_eq_true,
      if_false, decide_eq_true_eq]
    split
    · rw [if_pos (by omega), Option.some.injEq]
      omega
    · rw [if_pos (by omega), Option.some.injEq]
      omega
  rw [value, hint]

/-! ### Few digits -/

/-- The numeral as a decimal fraction, exactly and without its sign. -/
def decimal (n : Numeral) : Decimal :=
  let fraction := n.fraction.getD []
  ⟨digitsValue (n.whole ++ fraction), n.exponent.getD 0 - fraction.length⟩

/-- The number that a number followed by digits stands for is no less than the number. -/
theorem le_foldl_digits (n : Nat) (cs : List Char) :
  n ≤ cs.foldl (fun n c => 10 * n + (c.toNat - 48)) n
  := by
  induction cs generalizing n with
  | nil => apply Nat.le_refl
  | cons c cs ih =>
    have hnext := ih (10 * n + (c.toNat - 48))
    rw [List.foldl_cons]
    omega

/-- All digits are appended if the number that they make with those before them fits 64 bits. -/
theorem appendDigits_of_lt {n : Nat} {cs : List Char}
    (h : cs.foldl (fun n c => 10 * n + (c.toNat - 48)) n < 0x10000000000000000) :
  appendDigits n cs = (cs.foldl (fun n c => 10 * n + (c.toNat - 48)) n, [])
  := by
  induction cs generalizing n with
  | nil => rfl
  | cons c cs ih =>
    rw [List.foldl_cons] at h ⊢
    have hnext := le_foldl_digits (10 * n + (c.toNat - 48)) cs
    rw [appendDigits, if_pos (by omega), ih h]

/-- A numeral whose digits fit 64 bits is not shortened. -/
theorem shortened_eq_decimal {n : Numeral} (h : n.decimal.digits < 0x10000000000000000) :
  n.shortened = n.decimal
  := by
  simp only [decimal, digitsValue, List.foldl_append] at h
  have hwhole := Nat.lt_of_le_of_lt (le_foldl_digits _ _) h
  simp only [shortened, decimal, digitsValue, List.foldl_append, appendDigits_of_lt hwhole,
    appendDigits_of_lt h]
  congr 1
  simp

/-- A numeral that stands for no whole number stands for the number nearest to it, if its digits are
few and its power of ten is small. -/
theorem value_of_short {n : Numeral} (hint : n.int? = none) (hdigits : n.decimal.digits < 2 ^ 53)
    (hexponent : n.decimal.exponent.natAbs ≤ 22) :
  n.value = (n.decimal.toDouble n.negative).map .double
  := by
  have hfits : n.decimal.digits < 0x10000000000000000 := by omega
  simp only [value, hint, shortened_eq_decimal hfits]
  rw [Decimal.stepwise_eq_toDouble _ hdigits hexponent]

/-! ### Numbers of the binary64 format -/

/-- The numeral of a decimal fraction without zeros at its end. -/
def ofDecimal (negative : Bool) (x : Decimal) : Numeral :=
  let digits := x.digitList
  let size : Int := x.exponent + digits.length - 1
  if jsonStyle.isPlain size then
    if 0 ≤ x.exponent then
      ⟨negative, digits ++ List.replicate x.exponent.toNat '0', some ['0'], none⟩
    else if 0 ≤ size then
      ⟨negative, digits.take (size.toNat + 1), some (digits.drop (size.toNat + 1)), none⟩
    else ⟨negative, ['0'], some (List.replicate (-size - 1).toNat '0' ++ digits), none⟩
  else
    let tail := digits.drop 1
    ⟨negative, digits.take 1, if tail.isEmpty then none else some tail, some size⟩

/-- The numeral of a decimal fraction is laid out in one of four ways: as a whole number, with its
point among the digits, with zeros in front of them, or with an exponent. -/
theorem ofDecimal_cases (negative : Bool) (x : Decimal) {motive : Numeral → Prop}
    (whole : 0 ≤ x.exponent →
      motive ⟨negative, x.digitList ++ List.replicate x.exponent.toNat '0', some ['0'], none⟩)
    (point : ∀ k : Nat, x.exponent < 0 → (k : Int) = x.exponent + x.digitList.length →
      0 < k → motive ⟨negative, x.digitList.take k, some (x.digitList.drop k), none⟩)
    (small : ∀ k : Nat, (k : Int) = -(x.exponent + x.digitList.length) →
      motive ⟨negative, ['0'], some (List.replicate k '0' ++ x.digitList), none⟩)
    (scientific : motive ⟨negative, x.digitList.take 1,
      if (x.digitList.drop 1).isEmpty then none else some (x.digitList.drop 1),
      some (x.exponent + x.digitList.length - 1)⟩) :
  motive (ofDecimal negative x)
  := by
  unfold ofDecimal
  extract_lets ds size tail
  have hds : ds.length = x.digitList.length := rfl
  by_cases hplain : jsonStyle.isPlain size = true
  · rw [if_pos hplain]
    split
    · next hexponent => apply whole hexponent
    · next hexponent =>
      split
      · next hsize => apply point <;> omega
      · next hsize =>
        apply small
        omega
  · rw [if_neg hplain]
    apply scientific

/-- The exponent is written with the sign that it has. -/
theorem exponentText_eq (size : Int) :
  exponentText size
    = if 0 ≤ size then "e+".toList ++ Nat.toDigits 10 size.toNat
      else 'e' :: '-' :: Nat.toDigits 10 (-size).toNat
  := by
  cases size with
  | ofNat k => rfl
  | negSucc k => rfl

/-- The numeral of a decimal fraction is how it is written. -/
theorem text_ofDecimal (negative : Bool) (x : Decimal) :
  (ofDecimal negative x).text = signText negative ++ jsonStyle.decimalText x
  := by
  simp only [ofDecimal, NumberStyle.decimalText]
  split
  · split
    · simp [text, fractionText, jsonStyle]
    · split
      · simp [text, fractionText]
      · simp [text, fractionText]
  · split
    · simp [text, fractionText, exponentText_eq, jsonStyle]
    · simp [text, fractionText, exponentText_eq, jsonStyle]

/-- The numeral of a decimal fraction has its sign. -/
theorem negative_ofDecimal (negative : Bool) (x : Decimal) :
  (ofDecimal negative x).negative = negative
  := by
  apply ofDecimal_cases negative x (motive := fun n => n.negative = negative) <;> intros <;> rfl

/-- The numeral of a decimal fraction stands for no whole number. -/
theorem int?_ofDecimal (negative : Bool) (x : Decimal) :
  (ofDecimal negative x).int? = none
  := by
  apply ofDecimal_cases negative x (motive := fun n => n.int? = none) <;> intros <;> simp [int?]

/-- The numeral of a decimal fraction is proper, if zero has no exponent. -/
theorem proper_ofDecimal (negative : Bool) {x : Decimal} (h : x.digits = 0 → x.exponent = 0) :
  (ofDecimal negative x).Proper
  := by
  have hdigits : IsDigits x.digitList := isDigits_toDigits x.digits
  obtain ⟨c, cs, hcons⟩ := List.exists_cons_of_ne_nil hdigits.1
  have hlead : c = '0' → x.digitList = ['0'] ∧ x.exponent = 0 := by
    rintro rfl
    have hzero : x.digits = 0 := by
      apply eq_zero_of_head?_toDigits
      rw [← Decimal.digitList, hcons]
      rfl
    constructor
    · rw [Decimal.digitList, hzero, Nat.toDigits_zero]
    · apply h hzero
  apply ofDecimal_cases negative x
  case whole =>
    intro _
    constructor
    · apply hdigits.append_zeros
    · intro hhead
      rw [hcons, List.cons_append, List.head?_cons, Option.some.injEq] at hhead
      obtain ⟨hds, hexponent⟩ := hlead hhead
      simp [hds, hexponent]
    · simp [IsDigits]
  case point =>
    intro k hexponent hk hpos
    obtain ⟨k, rfl⟩ := Nat.exists_eq_add_one.2 hpos
    constructor
    · apply hdigits.take
    · intro hhead
      rw [hcons, List.take_succ_cons, List.head?_cons, Option.some.injEq] at hhead
      have := (hlead hhead).2
      omega
    · simp only [Option.mem_some_iff, forall_eq']
      apply hdigits.drop
      omega
  case small =>
    intro k _
    constructor
    · simp [IsDigits]
    · simp
    · simp only [Option.mem_some_iff, forall_eq']
      apply hdigits.zeros_append
  case scientific =>
    constructor
    · apply hdigits.take
    · simp [hcons]
    · intro tail htail
      rw [hcons] at hdigits htail
      cases cs with
      | nil => simp at htail
      | cons d cs =>
        obtain rfl : d :: cs = tail := by simpa using htail
        apply hdigits.drop (k := 1)
        simp

/-- The numeral of a decimal fraction is read like the fraction. -/
theorem toDouble_ofDecimal (negative : Bool) (x : Decimal) :
  (ofDecimal negative x).decimal.toDouble negative = x.toDouble negative
  := by
  obtain ⟨digits, exponent⟩ := x
  have hvalue : digitsValue (Decimal.mk digits exponent).digitList = digits :=
    digitsValue_toDigits digits
  have hne : (Decimal.mk digits exponent).digitList ≠ [] := Nat.toDigits_ne_nil
  apply ofDecimal_cases negative ⟨digits, exponent⟩
    (motive := fun n => n.decimal.toDouble negative = Decimal.toDouble negative ⟨digits, exponent⟩)
  all_goals generalize (Decimal.mk digits exponent).digitList = ds at hvalue hne
  case whole =>
    intro hexponent
    simp only at hexponent
    -- the zero after the point is one of the zeros that the digits are followed by
    have hzeros : ds ++ List.replicate exponent.toNat '0' ++ ['0']
        = ds ++ List.replicate (exponent.toNat + 1) '0' := by
      rw [List.append_assoc, List.replicate_succ']
    simp only [decimal, Option.getD_some, Option.getD_none, hzeros, digitsValue_append_zeros,
      hvalue, Decimal.toDouble_mul_pow]
    congr 2
    simp
    omega
  case point =>
    intro k hexponent hk _
    simp only at hexponent hk
    simp only [decimal, Option.getD_some, Option.getD_none, List.take_append_drop, hvalue]
    congr 2
    simp
    omega
  case small =>
    intro k hk
    simp only at hk
    have hfront : ['0'] ++ (List.replicate k '0' ++ ds) = List.replicate (k + 1) '0' ++ ds := by
      simp [List.replicate_succ]
    simp only [decimal, Option.getD_some, Option.getD_none, hfront, digitsValue_zeros_append,
      hvalue]
    congr 2
    simp
    omega
  case scientific =>
    obtain ⟨c, cs, rfl⟩ := List.exists_cons_of_ne_nil hne
    cases cs with
    | nil => simp [decimal, hvalue]
    | cons d cs =>
      simp [decimal, hvalue]
      congr 2
      omega

/-- The numeral of a number of the binary64 format. -/
def ofDouble (d : Double) : Numeral :=
  ofDecimal d.negative (d.shortest jsonStyle.tie)

/-- The numeral of a number of the binary64 format is proper. -/
theorem proper_ofDouble (d : Double) :
  (ofDouble d).Proper
  := proper_ofDecimal d.negative Double.exponent_shortest

/-- The numeral of a number of the binary64 format is how it is written. -/
theorem text_ofDouble (d : Double) :
  (ofDouble d).text = jsonStyle.text d
  := by
  rw [ofDouble, text_ofDecimal, NumberStyle.text, signText]
  split <;> rfl

/-- A number of the binary64 format is the nearest to its numeral. -/
theorem toDouble_ofDouble (d : Double) :
  (ofDouble d).decimal.toDouble d.negative = some d
  := by
  rw [ofDouble, toDouble_ofDecimal, Double.toDouble_shortest]

/-- The numeral of a number of the binary64 format stands for it, if its digits are few and its
power of ten is small. -/
theorem value_ofDouble {d : Double} (hdigits : (ofDouble d).decimal.digits < 2 ^ 53)
    (hexponent : (ofDouble d).decimal.exponent.natAbs ≤ 22) :
  (ofDouble d).value = some (.double d)
  := by
  have hsign : (ofDouble d).negative = d.negative := negative_ofDecimal _ _
  have hint : (ofDouble d).int? = none := int?_ofDecimal _ _
  rw [value_of_short hint hdigits hexponent, hsign, toDouble_ofDouble, Option.map_some]

end Numeral

end TextPipeline
