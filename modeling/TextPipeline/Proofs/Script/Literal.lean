import TextPipeline.Json.Literal
import TextPipeline.Script.Literal

/-!
# Reading the text literals of scripts

A script is read by an interpreter, which takes a literal from the opening quote up to the first
quote that is not escaped.  Whatever text is written, the literal ends where its writer ended it,
stays on its line, and gives back the text.  So a text cannot become a part of the script around
it.
-/

namespace TextPipeline

namespace ScriptLiteral

/-! ### Reading -/

/-- The character that a letter after a backslash stands for. -/
def shortEscape : Char → Option Char
  | '\\' => some '\\'
  | '"' => some '"'
  | 'n' => some '\n'
  | 'r' => some '\r'
  | 't' => some '\t'
  | _ => none

/-- The text up to the closing quote, and what follows it.  The quote must stand on the same
line. -/
def readBody : List Char → Option (List Char × List Char)
  | [] => none
  | '"' :: rest => some ([], rest)
  | '\\' :: 'x' :: a :: b :: rest =>
    match Literal.hexValue a, Literal.hexValue b, readBody rest with
    | some a, some b, some (cs, after) => some (Char.ofNat (a * 16 + b) :: cs, after)
    | _, _, _ => none
  | '\\' :: e :: rest =>
    match shortEscape e, readBody rest with
    | some c, some (cs, after) => some (c :: cs, after)
    | _, _ => none
  | c :: rest =>
    if c = '\n' ∨ c = '\r' then none
    else match readBody rest with
      | some (cs, after) => some (c :: cs, after)
      | none => none

/-- The text of the literal at the front, and what follows the literal.  Three quotes in a row
would begin a literal of another form. -/
def read : List Char → Option (List Char × List Char)
  | '"' :: '"' :: '"' :: _ => none
  | '"' :: rest => readBody rest
  | _ => none

/-- The characters are a sequence of pairs of a backslash and any character, and of single
characters other than a backslash and a quote.  So every quote among them is escaped, and what
comes after them is not. -/
inductive QuotesEscaped : List Char → Prop where
  | nil : QuotesEscaped []
  | plain {c : Char} {cs : List Char} (hquote : c ≠ '"') (hslash : c ≠ '\\')
      (h : QuotesEscaped cs) : QuotesEscaped (c :: cs)
  | pair {c : Char} {cs : List Char} (h : QuotesEscaped cs) : QuotesEscaped ('\\' :: c :: cs)

/-! ### One character -/

/-- The digit of a number below sixteen has its value, and is neither a control character nor a
quote nor a backslash. -/
theorem digitChar_spec {n : Nat} (h : n < 16) :
  Literal.hexValue (Nat.digitChar n) = some n ∧ isControl (Nat.digitChar n) = false ∧
    Nat.digitChar n ≠ '"' ∧ Nat.digitChar n ≠ '\\'
  := by
  have hall : ∀ m < 16, Literal.hexValue (Nat.digitChar m) = some m ∧
      isControl (Nat.digitChar m) = false ∧ Nat.digitChar m ≠ '"' ∧ Nat.digitChar m ≠ '\\' := by
    decide
  apply hall n h

/-- The number of a control character has two hexadecimal digits. -/
theorem toNat_lt_of_isControl {c : Char} (h : isControl c = true) :
  c.toNat < 0xA0
  := by
  simp only [isControl, Bool.or_eq_true, Bool.and_eq_true, decide_eq_true_eq] at h
  omega

/-- A character that stands for itself is read as it stands. -/
theorem readBody_plain {c : Char} (hquote : c ≠ '"') (hslash : c ≠ '\\')
    (hcontrol : isControl c = false) (rest : List Char) :
  readBody (c :: rest) = (readBody rest).map fun (cs, after) => (c :: cs, after)
  := by
  have hline : ¬(c = '\n' ∨ c = '\r') := by
    rintro (rfl | rfl) <;> simp [isControl] at hcontrol
  rw [readBody]
  · rw [if_neg hline]
    cases readBody rest <;> rfl
  · apply hquote
  · intro _ _ _ hc
    apply absurd hc hslash
  · intro _ _ hc
    apply absurd hc hslash

/-- A short escape is read as the character that it stands for. -/
theorem readBody_short {e c : Char} (h : shortEscape e = some c) (rest : List Char) :
  readBody ('\\' :: e :: rest) = (readBody rest).map fun (cs, after) => (c :: cs, after)
  := by
  rw [readBody]
  · rw [h]
    cases readBody rest <;> rfl
  · rintro _ _ _ rfl
    simp [shortEscape] at h

/-- An escape by number is read as the character of that number. -/
theorem readBody_number {n : Nat} (h : n < 0x100) (rest : List Char) :
  readBody ('\\' :: 'x' :: Nat.digitChar (n / 16) :: Nat.digitChar (n % 16) :: rest)
    = (readBody rest).map fun (cs, after) => (Char.ofNat n :: cs, after)
  := by
  have hvalue : n / 16 * 16 + n % 16 = n := Nat.div_add_mod' n 16
  rw [readBody, (digitChar_spec (by omega)).1, (digitChar_spec (by omega)).1]
  cases readBody rest with
  | none => rfl
  | some read => simp [hvalue]

/-- A written character is read back. -/
theorem readBody_escaped (c : Char) (rest : List Char) :
  readBody (escaped c ++ rest) = (readBody rest).map fun (cs, after) => (c :: cs, after)
  := by
  unfold escaped
  split
  case h_6 hslash hquote _ _ _ =>
    split
    · next hcontrol =>
      have hlt := toNat_lt_of_isControl hcontrol
      have hread := readBody_number (n := c.toNat) (by omega) rest
      rw [Char.ofNat_toNat] at hread
      apply hread
    · next hcontrol => apply readBody_plain hquote hslash (by simpa using hcontrol)
  all_goals apply readBody_short rfl

/-- No control character is written for a character. -/
theorem isControl_of_mem_escaped {c d : Char} (h : d ∈ escaped c) :
  isControl d = false
  := by
  unfold escaped at h
  split at h
  case h_6 =>
    split at h
    · next hcontrol =>
      have hlt := toNat_lt_of_isControl hcontrol
      simp only [List.mem_cons, List.not_mem_nil, or_false] at h
      rcases h with rfl | rfl | rfl | rfl
      · rfl
      · rfl
      · apply (digitChar_spec (by omega)).2.1
      · apply (digitChar_spec (by omega)).2.1
    · next hcontrol =>
      rw [List.mem_singleton.mp h]
      simpa using hcontrol
  all_goals
    simp only [List.mem_cons, List.not_mem_nil, or_false] at h
    rcases h with rfl | rfl <;> rfl

/-- A quote among what is written for a character is escaped. -/
theorem QuotesEscaped.escaped_append (c : Char) {rest : List Char} (h : QuotesEscaped rest) :
  QuotesEscaped (escaped c ++ rest)
  := by
  unfold escaped
  split
  case h_6 hslash hquote _ _ _ =>
    split
    · next hcontrol =>
      have hlt := toNat_lt_of_isControl hcontrol
      obtain ⟨-, -, hquote, hslash⟩ := digitChar_spec (n := c.toNat / 16) (by omega)
      obtain ⟨-, -, hquote', hslash'⟩ := digitChar_spec (n := c.toNat % 16) (by omega)
      apply QuotesEscaped.pair
      apply QuotesEscaped.plain hquote hslash
      apply QuotesEscaped.plain hquote' hslash' h
    · apply QuotesEscaped.plain hquote hslash h
  all_goals apply QuotesEscaped.pair h

/-! ### Texts -/

/-- What is written for a text is read back up to the closing quote. -/
theorem readBody_flatMap_escaped (cs after : List Char) :
  readBody (cs.flatMap escaped ++ '"' :: after) = some (cs, after)
  := by
  induction cs with
  | nil => rfl
  | cons c cs ih =>
    rw [List.flatMap_cons, List.append_assoc, readBody_escaped, ih]
    rfl

/-- All quotes within a written text are escaped. -/
theorem quotesEscaped_flatMap_escaped (cs : List Char) :
  QuotesEscaped (cs.flatMap escaped)
  := by
  induction cs with
  | nil => apply QuotesEscaped.nil
  | cons c cs ih =>
    rw [List.flatMap_cons]
    apply ih.escaped_append

/-- Whether something is read depends on the third character only where it is a quote after two
others. -/
theorem read_quote {rest : List Char} (h : ∀ after, rest ≠ '"' :: '"' :: after) :
  read ('"' :: rest) = readBody rest
  := by
  rw [read]
  rintro after rfl
  apply h after rfl

/-- A written literal is read as the text it was written for, and what follows it is left as it
is, unless it is a quote. -/
theorem read_written_append (cs : List Char) {after : List Char} (h : after.head? ≠ some '"') :
  read (written cs ++ after) = some (cs, after)
  := by
  have hwritten : written cs ++ after = '"' :: (cs.flatMap escaped ++ '"' :: after) := by
    simp [written]
  rw [hwritten, read_quote, readBody_flatMap_escaped]
  -- The literal would begin with three quotes only if the text were empty and a quote followed.
  intro rest hrest
  have hread := readBody_flatMap_escaped cs after
  rw [hrest] at hread
  obtain ⟨rfl, rfl⟩ := Prod.mk.inj (Option.some.inj hread)
  simp at h

/-- The literal of any text stands between quotes.  Between them there is no control character,
every quote is escaped, and the text is read back from the literal, whatever follows it on the
line other than a quote. -/
theorem exists_written_eq (cs : List Char) :
  ∃ inner, written cs = '"' :: inner ++ ['"'] ∧
    (∀ c ∈ inner, 0x20 ≤ c.toNat ∧ ¬(0x7F ≤ c.toNat ∧ c.toNat ≤ 0x9F)) ∧
    QuotesEscaped inner ∧
    ∀ after : List Char, after.head? ≠ some '"' → read (written cs ++ after) = some (cs, after)
  := by
  refine ⟨cs.flatMap escaped, rfl, ?_, quotesEscaped_flatMap_escaped cs, ?_⟩
  · intro c hc
    obtain ⟨d, -, hd⟩ := List.mem_flatMap.mp hc
    have hcontrol := isControl_of_mem_escaped hd
    simp only [isControl, Bool.or_eq_false_iff, Bool.and_eq_false_iff, decide_eq_false_iff_not]
      at hcontrol
    omega
  · intro after h
    apply read_written_append cs h

/-- Backslashes, quotes and escapes of the text itself do not end the literal. -/
example :
  read (written "\\\" + x41\x1bb".toList ++ "\nimport os".toList)
    = some ("\\\" + x41\x1bb".toList, "\nimport os".toList)
  := by
  decide

end ScriptLiteral

end TextPipeline
