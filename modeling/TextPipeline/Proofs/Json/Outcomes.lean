import TextPipeline.Json.Record
import TextPipeline.Proofs.Json.ReadBack

/-!
# What readers give

A property is ensured by a reader if it holds of every value that the reader gives for the tokens
of a text.  The reader of values ensures that they are canonical and fit into its room, and a
record is as its drafts are, as long as every field keeps what is known of the drafts.
-/

namespace TextPipeline

namespace Token

/-- A whole number that is a token fits 64 bits. -/
def Sound (t : Token) : Prop :=
  ∀ i, t = .number (.int i) → Numeral.Fits i

/-- All the tokens are sound. -/
def AllSound (ts : List Token) : Prop :=
  ∀ t ∈ ts, t.Sound

/-- The tokens behind the first one are sound. -/
theorem AllSound.tail {t : Token} {ts : List Token} (h : AllSound (t :: ts)) :
  AllSound ts
  := (List.forall_mem_cons.1 h).2

/-- The numeral of a whole number stands for one that fits. -/
theorem fits_of_int? {n : Numeral} {i : Int} (h : n.int? = some i) :
  Numeral.Fits i
  := by
  simp only [Numeral.int?] at h
  split at h
  · cases h
  · split at h
    · split at h
      · cases h
        unfold Numeral.Fits
        omega
      · cases h
    · split at h
      · cases h
        unfold Numeral.Fits
        omega
      · cases h

/-- Only a numeral of a whole number stands for one. -/
theorem int?_of_value {n : Numeral} {i : Int} (h : n.value = some (.int i)) :
  n.int? = some i
  := by
  rw [Numeral.value] at h
  generalize n.shortened.stepwise n.negative = double at h
  cases hint : n.int? with
  | some j =>
    rw [hint] at h
    cases h
    rfl
  | none =>
    rw [hint] at h
    cases double <;> cases h

/-- The token of a numeral is sound. -/
theorem sound_ofNumeral (n : Numeral) :
  (ofNumeral n).Sound
  := by
  rintro i hi
  rw [ofNumeral] at hi
  cases hvalue : n.value with
  | some v =>
    rw [hvalue] at hi
    cases hi
    apply fits_of_int? (int?_of_value hvalue)
  | none =>
    rw [hvalue] at hi
    cases hi

/-- The token that a text begins with is sound. -/
theorem sound_next {c : Char} {cs rest : List Char} {t : Token}
    (h : next c cs = some (t, rest)) :
  t.Sound
  := by
  unfold next at h
  split at h
  case h_7 =>
    simp only [Option.map_eq_some_iff, Prod.mk.injEq, Prod.exists] at h
    obtain ⟨ps, after, -, rfl, -⟩ := h
    rintro i hi
    unfold ofPieces at hi
    split at hi <;> cases hi
  case h_8 =>
    split at h
    · simp only [Option.map_eq_some_iff, Prod.mk.injEq, Prod.exists] at h
      obtain ⟨n, after, -, rfl, -⟩ := h
      apply sound_ofNumeral
    · rintro i rfl
      unfold word at h
      split at h <;> cases h
  all_goals
    cases h
    rintro i hi
    cases hi

/-- The tokens of a text are sound. -/
theorem sound_scan (cs : List Char) :
  AllSound (scan cs)
  := by
  fun_induction scan cs with
  | case1 => simp [AllSound]
  | case2 c cs hspace ih => apply ih
  | case3 c cs hspace hnext =>
    simp [AllSound, Sound]
  | case4 c cs hspace t rest hnext ih =>
    intro u hu
    obtain rfl | hu := List.mem_cons.1 hu
    · apply sound_next hnext
    · apply ih u hu

end Token

/-- What is passed over leaves nothing but tokens that were there. -/
theorem Pass.mem_of_run {p : Pass} {ts rest : List Token} (h : p.run ts = some rest) :
  ∀ t ∈ rest, t ∈ ts
  := by
  induction ts generalizing p with
  | nil => cases h
  | cons t ts ih =>
    simp only [Pass.run] at h
    split at h
    · cases h
    · split at h
      · cases h
        intro u hu
        apply List.mem_cons_of_mem _ hu
      · intro u hu
        apply List.mem_cons_of_mem _ (ih h u hu)

namespace Reader

variable {α β σ : Type}

/-- The property holds of every value that the reader gives for sound tokens, and what follows the
value is sound too. -/
def Ensures (r : Reader α) (P : α → Prop) : Prop :=
  ∀ ts a rest, Token.AllSound ts → r.run ts = .ok (a, rest) → P a ∧ Token.AllSound rest

/-- What is ensured of a value is ensured of the changed one. -/
theorem Ensures.map {r : Reader α} {P : α → Prop} (h : r.Ensures P) {Q : β → Prop} {f : α → β}
    (hf : ∀ a, P a → Q (f a)) :
  (r.map f).Ensures Q
  := by
  intro ts b rest hsound hrun
  simp only [Reader.map] at hrun
  split at hrun
  · next a rest' hr =>
    cases hrun
    obtain ⟨ha, hrest⟩ := h ts a rest hsound hr
    apply And.intro (hf a ha) hrest
  · cases hrun

/-- What is ensured holds of the value of a whole text. -/
theorem Ensures.whole {r : Reader α} {P : α → Prop} (h : r.Ensures P) {text : String} {a : α}
    (hread : r.whole (Token.scan text.toList) = .ok a) :
  P a
  := by
  unfold Reader.whole at hread
  split at hread
  · next b hrun =>
    cases hread
    apply (h _ a [] (Token.sound_scan _) hrun).1
  · cases hread
  · cases hread

/-- A value that is a single token has what its token gives it. -/
theorem ensures_single {f : Token → Except Fault α} {P : α → Prop}
    (h : ∀ t a, f t = .ok a → P a) :
  (single f).Ensures P
  := by
  intro ts a rest hsound hrun
  cases ts with
  | nil => cases hrun
  | cons t ts =>
    simp only [single] at hrun
    split at hrun
    · next b hb =>
      cases hrun
      apply And.intro (h t a hb) hsound.tail
    · cases hrun

/-- A text is read as any text. -/
theorem ensures_text :
  Reader.text.Ensures fun _ => True
  := ensures_single fun _ _ _ => trivial

/-- A number is read as any number. -/
theorem ensures_number :
  Reader.number.Ensures fun _ => True
  := ensures_single fun _ _ _ => trivial

/-- Any value may be given for what is passed over. -/
theorem ensures_pass {P : α → Prop} {a : α} (h : P a) :
  (pass a).Ensures P
  := by
  intro ts b rest hsound hrun
  simp only [pass] at hrun
  split at hrun
  · next hpass =>
    cases hrun
    use h
    intro t ht
    apply hsound t (Pass.mem_of_run hpass t ht)
  · cases hrun

/-! ### Arrays -/

/-- The elements that follow the first one have what is ensured of each. -/
theorem Ensures.moreElements {item : Reader α} {P : α → Prop} (h : item.Ensures P)
    {ts rest : List Token} {as : List α} (hsound : Token.AllSound ts)
    (hrun : Reader.moreElements item ts = .ok (as, rest)) :
  (∀ a ∈ as, P a) ∧ Token.AllSound rest
  := by
  fun_induction Reader.moreElements item ts generalizing as rest with
  | case1 ts =>
    cases hrun
    simpa using hsound.tail
  | case2 ts e hr => cases hrun
  | case3 ts a after hr e hm ih => cases hrun
  | case4 ts a mid hr bs after hm ih =>
    cases hrun
    obtain ⟨ha, hmid⟩ := h ts a mid hsound.tail hr
    obtain ⟨hbs, hafter⟩ := ih hmid hm
    apply And.intro _ hafter
    intro b hb
    obtain rfl | hb := List.mem_cons.1 hb
    · apply ha
    · apply hbs b hb
  | case5 => cases hrun

/-- The elements of an array have what is ensured of each. -/
theorem Ensures.elements {item : Reader α} {P : α → Prop} (h : item.Ensures P)
    {ts rest : List Token} {as : List α} (hsound : Token.AllSound ts)
    (hrun : Reader.elements item ts = .ok (as, rest)) :
  (∀ a ∈ as, P a) ∧ Token.AllSound rest
  := by
  unfold Reader.elements at hrun
  split at hrun
  · cases hrun
    simpa using hsound.tail
  · split at hrun
    · cases hrun
    · next a mid hr =>
      split at hrun
      · cases hrun
      · next bs after hm =>
        cases hrun
        obtain ⟨ha, hmid⟩ := h _ a mid hsound hr
        obtain ⟨hbs, hafter⟩ := h.moreElements hmid hm
        apply And.intro _ hafter
        intro b hb
        obtain rfl | hb := List.mem_cons.1 hb
        · apply ha
        · apply hbs b hb

/-- There is room for an array that was read, and its elements have what is ensured of each. -/
theorem ensures_array {room : Nat} {item : Nat → Reader α} {P : α → Prop}
    (h : ∀ k, room = k + 1 → (item k).Ensures P) :
  (Reader.array room item).Ensures fun as => ∀ a ∈ as, P a
  := by
  intro ts as rest hsound hrun
  simp only [Reader.array] at hrun
  split at hrun
  · next ts =>
    cases room with
    | zero => cases hrun
    | succ k => apply (h k rfl).elements hsound.tail hrun
  · cases hrun

/-! ### Objects -/

/-- Every member keeps what is known of the states. -/
def Keeps (take : σ → String → Except Fault (Reader σ)) (P : σ → Prop) : Prop :=
  ∀ s name r, P s → take s name = .ok r → r.Ensures P

variable {take : σ → String → Except Fault (Reader σ)} {P : σ → Prop} {s s' : σ}
  {ts rest : List Token}

/-- A member keeps what is known of the state. -/
theorem Keeps.member (h : Keeps take P) (hs : P s) (hsound : Token.AllSound ts)
    (hrun : Reader.member take s ts = .ok (s', rest)) :
  P s' ∧ Token.AllSound rest
  := by
  unfold Reader.member at hrun
  split at hrun
  · next name ts =>
    split at hrun
    · cases hrun
    · next r hr =>
      split at hrun
      · apply h s name r hs hr _ _ _ hsound.tail.tail hrun
      · cases hrun
  · cases hrun

/-- The members that follow the first one keep what is known of the state. -/
theorem Keeps.moreMembers (h : Keeps take P) (hs : P s) (hsound : Token.AllSound ts)
    (hrun : Reader.moreMembers take s ts = .ok (s', rest)) :
  P s' ∧ Token.AllSound rest
  := by
  fun_induction Reader.moreMembers take s ts with
  | case1 s ts =>
    cases hrun
    apply And.intro hs hsound.tail
  | case2 s ts e hm => cases hrun
  | case3 s ts mid rest' hm ih =>
    obtain ⟨hmid, hrest'⟩ := h.member hs hsound.tail hm
    apply ih hmid hrest' hrun
  | case4 => cases hrun

/-- The members of an object keep what is known of the state. -/
theorem Keeps.members (h : Keeps take P) (hs : P s) (hsound : Token.AllSound ts)
    (hrun : Reader.members take s ts = .ok (s', rest)) :
  P s' ∧ Token.AllSound rest
  := by
  unfold Reader.members at hrun
  split at hrun
  · cases hrun
    apply And.intro hs hsound.tail
  · split at hrun
    · cases hrun
    · next mid rest' hm =>
      obtain ⟨hmid, hrest'⟩ := h.member hs hsound hm
      apply h.moreMembers hmid hrest' hrun

/-! ### Values -/

/-- The value is canonical, and at most `room` arrays and objects are open at one place of it. -/
def Within (room : Nat) (v : Json) : Prop :=
  v.Canonical ∧ v.depth ≤ room

/-- The members are sorted, and their values are within the room. -/
def AllWithin (room : Nat) (ms : Named Json) : Prop :=
  ms.Sorted ∧ ∀ m ∈ ms, Within room m.2

/-- An array needs more room than its elements. -/
theorem within_arr {room : Nat} {vs : List Json} (h : ∀ v ∈ vs, Within room v) :
  Within (room + 1) (.arr vs)
  := by
  constructor
  · apply Json.Canonical.arr fun v hv => (h v hv).1
  · apply Json.depth_arr_le_iff.2
    use room, rfl
    intro v hv
    apply (h v hv).2

/-- An object needs more room than its members. -/
theorem AllWithin.within_obj {room : Nat} {ms : Named Json} (h : AllWithin room ms) :
  Within (room + 1) (.obj ms)
  := by
  constructor
  · apply Json.Canonical.obj h.1 fun m hm => (h.2 m hm).1
  · apply Json.depth_obj_le_iff.2
    use room, rfl
    intro m hm
    apply (h.2 m hm).2

/-- Values that are within the room are put into members that are. -/
theorem keeps_allWithin {room : Nat} {item : Reader Json} (h : item.Ensures (Within room)) :
  Keeps (fun (ms : Named Json) name => .ok (item.map fun v => ms.insert name v)) (AllWithin room)
  := by
  intro ms name r hms hr
  cases hr
  apply h.map
  intro v hv
  apply And.intro (hms.1.insert name v)
  intro m hm
  obtain rfl | hm := Named.mem_of_mem_insert hm
  · apply hv
  · apply hms.2 m hm

/-- No members need no room. -/
theorem allWithin_nil (room : Nat) :
  AllWithin room []
  := by
  apply And.intro List.Pairwise.nil
  simp

/-- A value that was read is within the room if the values inside arrays and objects are. -/
theorem ensures_valueWith {room : Nat} {inner : Option (Reader Json)}
    (h : ∀ item, inner = some item → ∃ k, room = k + 1 ∧ item.Ensures (Within k)) :
  (valueWith inner).Ensures (Within room)
  := by
  intro ts v rest hsound hrun
  simp only [valueWith] at hrun
  split at hrun
  case h_1 =>
    cases hrun
    exact ⟨⟨.null, Nat.zero_le _⟩, hsound.tail⟩
  case h_2 b ts =>
    cases hrun
    exact ⟨⟨.bool b, Nat.zero_le _⟩, hsound.tail⟩
  case h_3 n ts =>
    cases hrun
    cases n with
    | int i => exact ⟨⟨.int (hsound _ List.mem_cons_self i rfl), Nat.zero_le _⟩, hsound.tail⟩
    | double d => exact ⟨⟨.double d, Nat.zero_le _⟩, hsound.tail⟩
  case h_4 s ts =>
    cases hrun
    exact ⟨⟨.str s, Nat.zero_le _⟩, hsound.tail⟩
  case h_5 ts =>
    split at hrun
    · cases hrun
    · next item =>
      obtain ⟨k, rfl, hitem⟩ := h item rfl
      split at hrun
      · cases hrun
      · next vs after he =>
        cases hrun
        obtain ⟨hvs, hafter⟩ := hitem.elements hsound.tail he
        apply And.intro (within_arr hvs) hafter
  case h_6 ts =>
    split at hrun
    · cases hrun
    · next item =>
      obtain ⟨k, rfl, hitem⟩ := h item rfl
      split at hrun
      · cases hrun
      · next ms after he =>
        cases hrun
        obtain ⟨hms, hafter⟩ :=
          (keeps_allWithin hitem).members (allWithin_nil k) hsound.tail he
        apply And.intro hms.within_obj hafter
  case h_7 => cases hrun

/-- A value that was read is canonical and within the room of its reader. -/
theorem ensures_value (room : Nat) :
  (value room).Ensures (Within room)
  := by
  induction room with
  | zero =>
    apply ensures_valueWith
    intro item hitem
    cases hitem
  | succ room ih =>
    apply ensures_valueWith
    intro item hitem
    cases hitem
    exact ⟨room, rfl, ih⟩

/-- The members of an object that was read are canonical and within the room of its reader. -/
theorem ensures_object (room : Nat) :
  (Reader.object room).Ensures fun ms => Within room (.obj ms)
  := by
  intro ts ms rest hsound hrun
  simp only [Reader.object] at hrun
  split at hrun
  · next ts =>
    cases room with
    | zero => cases hrun
    | succ room =>
      have hkeeps := keeps_allWithin (ensures_value room)
      obtain ⟨hms, hrest⟩ := hkeeps.members (allWithin_nil room)
        hsound.tail hrun
      apply And.intro hms.within_obj hrest
  · cases hrun

end Reader

namespace Record

variable {σ α : Type}

/-- Every field keeps what is known of the drafts, which hold what is ensured of the record. -/
structure Keeps (r : Record σ α) (P : σ → Prop) (Q : α → Prop) : Prop where
  blank : P r.blank
  read : ∀ field ∈ r.fields, ∀ draft, P draft → (field.read draft).Ensures P
  finish : ∀ draft a, P draft → r.finish draft = .ok a → Q a

variable {r : Record σ α} {P : σ → Prop} {Q : α → Prop}

/-- A record whose fields are read as any values is any record. -/
theorem keeps_true
    (h : ∀ field ∈ r.fields, ∀ draft, (field.read draft).Ensures fun _ => True) :
  r.Keeps (fun _ => True) (fun _ => True)
  := by
  constructor
  · trivial
  · intro field hfield draft _
    apply h field hfield
  · intro _ _ _ _
    trivial

/-- Known fields and other members keep what is known of the drafts. -/
theorem Keeps.take (h : r.Keeps P Q) :
  Reader.Keeps r.take P
  := by
  intro draft name reader hdraft htake
  unfold Record.take at htake
  split at htake
  · cases htake
    apply Reader.ensures_pass hdraft
  · next field hfield =>
    split at htake
    · cases htake
    · cases htake
      apply h.read field (List.mem_of_find?_eq_some hfield) draft hdraft

/-- The elements for further fields keep what is known of the drafts. -/
theorem Keeps.moreElements {fields : List (Field σ)}
    (h : ∀ field ∈ fields, ∀ draft, P draft → (field.read draft).Ensures P) {draft draft' : σ}
    {count count' : Nat} {ts rest : List Token} (hdraft : P draft) (hsound : Token.AllSound ts)
    (hrun : Record.moreElements draft count fields ts = .ok ((draft', count'), rest)) :
  P draft' ∧ Token.AllSound rest
  := by
  fun_induction Record.moreElements draft count fields ts with
  | case1 draft count ts =>
    cases hrun
    apply And.intro hdraft hsound
  | case2 draft count field fields ts e hr => cases hrun
  | case3 draft count field fields ts draft'' mid hr ih =>
    obtain ⟨hdraft'', hmid⟩ := h field List.mem_cons_self draft hdraft ts draft'' mid
      hsound.tail hr
    apply ih (fun f hf => h f (List.mem_cons_of_mem _ hf)) hdraft'' hmid hrun
  | case4 draft count field fields ts =>
    cases hrun
    apply And.intro hdraft hsound
  | case5 => cases hrun

/-- The elements for the fields keep what is known of the drafts. -/
theorem Keeps.elements {fields : List (Field σ)}
    (h : ∀ field ∈ fields, ∀ draft, P draft → (field.read draft).Ensures P) {draft draft' : σ}
    {count : Nat} {ts rest : List Token} (hdraft : P draft) (hsound : Token.AllSound ts)
    (hrun : Record.elements draft fields ts = .ok ((draft', count), rest)) :
  P draft' ∧ Token.AllSound rest
  := by
  unfold Record.elements at hrun
  split at hrun
  · cases hrun
    apply And.intro hdraft hsound
  · cases hrun
    apply And.intro hdraft hsound
  · next field fields _ =>
    split at hrun
    · cases hrun
    · next draft'' mid hr =>
      obtain ⟨hdraft'', hmid⟩ := h field List.mem_cons_self draft hdraft _ draft'' mid hsound hr
      apply Keeps.moreElements (fun f hf => h f (List.mem_cons_of_mem _ hf)) hdraft'' hmid hrun

/-- A record that was read from an object or from an array has what is ensured of it. -/
theorem ensures_reader {room : Nat} {r : Nat → Record σ α}
    (h : ∀ k, room = k + 1 → ∃ P, (r k).Keeps P Q) :
  (Record.reader room r).Ensures Q
  := by
  intro ts a rest hsound hrun
  simp only [Record.reader] at hrun
  split at hrun
  · next ts =>
    cases room with
    | zero => cases hrun
    | succ k =>
      obtain ⟨P, hkeeps⟩ := h k rfl
      simp only [Record.ofMembers] at hrun
      split at hrun
      · cases hrun
      · next draft after hm =>
        obtain ⟨hdraft, hafter⟩ := hkeeps.take.members hkeeps.blank
          hsound.tail hm
        split at hrun
        · cases hrun
        · next b hfinish =>
          cases hrun
          apply And.intro (hkeeps.finish draft a hdraft hfinish) hafter
  · next ts =>
    cases room with
    | zero => cases hrun
    | succ k =>
      obtain ⟨P, hkeeps⟩ := h k rfl
      simp only [Record.ofElements] at hrun
      split at hrun
      · cases hrun
      · next draft count after he =>
        obtain ⟨hdraft, hafter⟩ := Keeps.elements hkeeps.read hkeeps.blank
          hsound.tail he
        split at hrun
        · next rest' =>
          split at hrun
          · cases hrun
          · next b hfinish =>
            cases hrun
            apply And.intro (hkeeps.finish draft a hdraft hfinish) hafter.tail
        · cases hrun
  · cases hrun

end Record

end TextPipeline
