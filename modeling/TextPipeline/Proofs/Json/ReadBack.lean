import TextPipeline.Json.Record
import TextPipeline.Json.Value
import TextPipeline.Proofs.Json.Pass
import TextPipeline.Proofs.Json.Tokens
import TextPipeline.Proofs.SortedValues

/-!
# Reading values back

The values that a text can stand for are the canonical ones: their whole numbers fit 64 bits and
the members of their objects are sorted by name.  What tokens mean is told by their form alone, and
every form of a canonical value means the value.  A reader is said to read a list of tokens as a
value if it does so whatever follows the tokens.  Values are read from the tokens that mean them, as
soon as the reader has room for the arrays and objects that are open in them at one place.
-/

namespace TextPipeline

namespace Json

mutual

/-- The number of arrays and objects that are open at one place of a value. -/
def depth : Json → Nat
  | .arr vs => elementsDepth vs + 1
  | .obj ms => membersDepth ms + 1
  | _ => 0

/-- The number of arrays and objects that are open at one place of an element. -/
def elementsDepth : List Json → Nat
  | [] => 0
  | v :: vs => max v.depth (elementsDepth vs)

/-- The number of arrays and objects that are open at one place of the value of a member. -/
def membersDepth : Named Json → Nat
  | [] => 0
  | (_, v) :: ms => max v.depth (membersDepth ms)

end

/-- The whole numbers in the value fit 64 bits, and the members of its objects are sorted. -/
inductive Canonical : Json → Prop where
  | null : Canonical .null
  | bool (value : Bool) : Canonical (.bool value)
  | int {value : Int} (h : Numeral.Fits value) : Canonical (.int value)
  | double (value : Double) : Canonical (.double value)
  | str (value : String) : Canonical (.str value)
  | arr {elements : List Json} (h : ∀ v ∈ elements, Canonical v) : Canonical (.arr elements)
  | obj {members : Named Json} (sorted : members.Sorted) (h : ∀ m ∈ members, Canonical m.2) :
      Canonical (.obj members)

/-- The whole numbers of a canonical value fit 64 bits. -/
theorem Canonical.fits {v : Json} (h : v.Canonical) :
  v.Fits
  := by
  induction h with
  | null => apply Fits.null
  | bool value => apply Fits.bool
  | int hfits => apply Fits.int hfits
  | double value => apply Fits.double
  | str value => apply Fits.str
  | arr _ ih => apply Fits.arr ih
  | obj _ _ ih => apply Fits.obj ih

/-- The depth of elements is bounded by every bound on the depth of each. -/
theorem elementsDepth_le_iff {vs : List Json} {n : Nat} :
  elementsDepth vs ≤ n ↔ ∀ v ∈ vs, v.depth ≤ n
  := by
  induction vs with
  | nil => simp [elementsDepth]
  | cons v vs ih => simp [elementsDepth, ih]

/-- The depth of members is bounded by every bound on the depth of each. -/
theorem membersDepth_le_iff {ms : Named Json} {n : Nat} :
  membersDepth ms ≤ n ↔ ∀ m ∈ ms, m.2.depth ≤ n
  := by
  induction ms with
  | nil => simp [membersDepth]
  | cons m ms ih => simp [membersDepth, ih]

/-- An array is as deep as its elements and one more. -/
theorem depth_arr_le_iff {vs : List Json} {n : Nat} :
  (arr vs).depth ≤ n ↔ ∃ k, n = k + 1 ∧ ∀ v ∈ vs, v.depth ≤ k
  := by
  cases n with
  | zero => simp [depth]
  | succ n => simp [depth, elementsDepth_le_iff]

/-- An object is as deep as its members and one more. -/
theorem depth_obj_le_iff {ms : Named Json} {n : Nat} :
  (obj ms).depth ≤ n ↔ ∃ k, n = k + 1 ∧ ∀ m ∈ ms, m.2.depth ≤ k
  := by
  cases n with
  | zero => simp [depth]
  | succ n => simp [depth, membersDepth_le_iff]

/-- The tokens mean the value, with at most `room` arrays and objects open at one place.  The
members of an object are taken one after the other, so that a name that comes more than once has its
last value. -/
inductive MeantBy : Nat → Json → List Token → Prop where
  | null {room : Nat} : MeantBy room .null [.null]
  | bool {room : Nat} (value : Bool) : MeantBy room (.bool value) [.bool value]
  | int {room : Nat} (value : Int) : MeantBy room (.int value) [.number (.int value)]
  | double {room : Nat} (value : Double) : MeantBy room (.double value) [.number (.double value)]
  | str {room : Nat} (value : String) : MeantBy room (.str value) [.text value]
  | arr {room : Nat} {parts : List (Json × List Token)} (h : ∀ p ∈ parts, MeantBy room p.1 p.2) :
      MeantBy (room + 1) (.arr (parts.map Prod.fst)) (Token.arrayOf (parts.map Prod.snd))
  | obj {room : Nat} {parts : Named (Json × List Token)}
      (h : ∀ p ∈ parts, MeantBy room p.2.1 p.2.2) :
      MeantBy (room + 1) (.obj (Named.insertAll [] (parts.map fun p => (p.1, p.2.1))))
        (Token.recordOf (parts.map fun p => (p.1, p.2.2)))

/-- Tokens that mean something make up a value. -/
theorem MeantBy.isValue {room : Nat} {v : Json} {ts : List Token} (h : v.MeantBy room ts) :
  Token.IsValue ts
  := by
  induction h with
  | arr _ ih =>
    apply Token.IsValue.array
    intro ts hts
    obtain ⟨p, hp, rfl⟩ := List.mem_map.1 hts
    apply ih p hp
  | obj _ ih =>
    apply Token.isValue_recordOf
    intro m hm
    obtain ⟨p, hp, rfl⟩ := List.mem_map.1 hm
    apply ih p hp
  | _ => apply Token.IsValue.scalar rfl

/-- Every form of a canonical value means the value if there is room for it. -/
theorem Canonical.meantBy {room : Nat} {v : Json} {ts : List Token} (h : v.Canonical)
    (hroom : v.depth ≤ room) (hform : v.WrittenAs ts) :
  v.MeantBy room ts
  := by
  induction hform generalizing room with
  | null => apply MeantBy.null
  | bool value => apply MeantBy.bool
  | int value => apply MeantBy.int
  | double value => apply MeantBy.double
  | str value => apply MeantBy.str
  | arr _ ih =>
    obtain ⟨k, rfl, hdepth⟩ := depth_arr_le_iff.1 hroom
    cases h with
    | arr hcanonical =>
      apply MeantBy.arr
      intro p hp
      have hmem := List.mem_map_of_mem (f := Prod.fst) hp
      apply ih p hp (hcanonical p.1 hmem) (hdepth p.1 hmem)
  | @obj members parts hmembers _ ih =>
    obtain ⟨k, rfl, hdepth⟩ := depth_obj_le_iff.1 hroom
    cases h with
    | obj hsorted hcanonical =>
      -- The members are put in their order as they come.
      rw [← hsorted.insertAll_nil, ← Named.insertAll_nil_congr hmembers hsorted.nodup]
      apply MeantBy.obj
      intro p hp
      have hmem : (p.1, p.2.1) ∈ members := hmembers.mem_iff.1 (List.mem_map.2 ⟨p, hp, rfl⟩)
      apply ih p hp (hcanonical _ hmem) (hdepth _ hmem)

end Json

/-- The members are those of a canonical object. -/
def Named.Canonical (members : Named Json) : Prop :=
  (Json.obj members).Canonical

namespace Reader

variable {α β σ : Type}

/-- The reader reads the tokens as the value `a`, whatever follows them. -/
def Reads (r : Reader α) (ts : List Token) (a : α) : Prop :=
  ∀ rest, r.run (ts ++ rest) = .ok (a, rest)

/-- What is read is changed. -/
theorem Reads.map {r : Reader α} {ts : List Token} {a : α} (h : r.Reads ts a) (f : α → β) :
  (r.map f).Reads ts (f a)
  := by
  intro rest
  simp only [Reader.map, h rest]

/-- The whole list of tokens is read. -/
theorem Reads.whole {r : Reader α} {ts : List Token} {a : α} (h : r.Reads ts a) :
  r.whole ts = .ok a
  := by
  have hrun := h []
  rw [List.append_nil] at hrun
  rw [Reader.whole, hrun]

/-- A value that is a single token is read as what the token gives. -/
theorem reads_single {f : Token → Except Fault α} {t : Token} {a : α} (h : f t = .ok a) :
  (single f).Reads [t] a
  := by
  intro rest
  simp only [single, List.singleton_append, h]

/-- A text is read. -/
theorem reads_text (s : String) :
  Reader.text.Reads [.text s] s
  := reads_single rfl

/-- A value is passed over. -/
theorem reads_pass {ts : List Token} (h : Token.IsValue ts) (a : α) :
  (Reader.pass a).Reads ts a
  := by
  intro rest
  simp only [Reader.pass, h.passes [] rest]
  rfl

/-! ### Arrays -/

/-- The elements that follow the first one are read. -/
theorem moreElements_moreItems {item : Reader α} {as : List α} {parts : List (List Token)}
    (h : List.Forall₂ (fun a ts => item.Reads ts a) as parts) (rest : List Token) :
  moreElements item (Token.moreItems .closeArray parts ++ rest) = .ok (as, rest)
  := by
  induction h with
  | nil =>
    rw [Token.moreItems, List.singleton_append, moreElements]
  | cons hread _ ih =>
    rw [Token.moreItems, List.cons_append, List.append_assoc, moreElements, hread]
    simp only [ih]

/-- The elements of an array are read. -/
theorem elements_items {item : Reader α} {as : List α} {parts : List (List Token)}
    (h : List.Forall₂ (fun a ts => item.Reads ts a) as parts)
    (hvalue : ∀ ts ∈ parts, Token.IsValue ts) (rest : List Token) :
  elements item (Token.items .closeArray parts ++ rest) = .ok (as, rest)
  := by
  cases h with
  | nil =>
    rw [Token.items, List.singleton_append, elements]
  | @cons a ts as parts hread hmore =>
    obtain ⟨t, front, rfl, ht⟩ := (hvalue ts List.mem_cons_self).exists_eq_cons
    rw [Token.items, List.append_assoc, elements, hread]
    · simp only [moreElements_moreItems hmore]
    · intro after hfront
      apply ht (List.cons.inj hfront).1

/-- What holds of every form of a member of a list holds of the forms of all members. -/
theorem forall_of_forall₂ {R : α → List Token → Prop} {P : List Token → Prop} {as : List α}
    {parts : List (List Token)} (h : List.Forall₂ R as parts) (hform : ∀ a ts, R a ts → P ts) :
  ∀ ts ∈ parts, P ts
  := by
  induction h with
  | nil => simp
  | @cons a ts as parts hfirst _ ih =>
    intro us hus
    obtain rfl | hus := List.mem_cons.1 hus
    · apply hform a us hfirst
    · apply ih us hus

/-- An array is read if there is room for it and every form of each of its elements is read. -/
theorem reads_array {room : Nat} {item : Nat → Reader α} {R : α → List Token → Prop}
    {as : List α} {parts : List (List Token)} (h : List.Forall₂ R as parts)
    (hvalue : ∀ a ts, R a ts → Token.IsValue ts)
    (hread : ∀ a ∈ as, ∀ ts, R a ts → (item room).Reads ts a) :
  (Reader.array (room + 1) item).Reads (Token.arrayOf parts) as
  := by
  intro rest
  have helements : List.Forall₂ (fun a ts => (item room).Reads ts a) as parts := by
    apply List.Forall₂.imp _ ((List.forall₂_and_left as parts).2 ⟨hread, h⟩)
    intro a ts hform
    apply hform.1 ts hform.2
  rw [Token.arrayOf, List.cons_append]
  apply elements_items helements (forall_of_forall₂ h hvalue)

/-! ### Objects -/

/-- The members lead from a state to another one, each of them being read. -/
inductive Takes (take : σ → String → Except Fault (Reader σ)) :
    σ → Named (List Token) → σ → Prop where
  | nil (s : σ) : Takes take s [] s
  | cons {s s' s'' : σ} {name : String} {ts : List Token} {ms : Named (List Token)}
      {r : Reader σ} (htake : take s name = .ok r) (hread : r.Reads ts s')
      (hmore : Takes take s' ms s'') : Takes take s ((name, ts) :: ms) s''

variable {take : σ → String → Except Fault (Reader σ)} {s s' : σ}

/-- A member is read. -/
theorem member_append {name : String} {ts : List Token} {r : Reader σ}
    (htake : take s name = .ok r) (hread : r.Reads ts s') (rest : List Token) :
  member take s (.text name :: .colon :: (ts ++ rest)) = .ok (s', rest)
  := by
  simp only [member, htake, hread rest]

/-- The members that follow the first one are read. -/
theorem Takes.moreMembers {ms : Named (List Token)} (h : Takes take s ms s')
    (rest : List Token) :
  Reader.moreMembers take s (Token.moreItems .closeObject
      (ms.map fun m => .text m.1 :: .colon :: m.2) ++ rest) = .ok (s', rest)
  := by
  induction h with
  | nil s =>
    rw [List.map_nil, Token.moreItems, List.singleton_append, Reader.moreMembers]
  | cons htake hread hmore ih =>
    simp only [List.map_cons, Token.moreItems, List.cons_append, List.append_assoc]
    rw [Reader.moreMembers, member_append htake hread]
    simp only [ih]

/-- The members of an object are read. -/
theorem Takes.members {ms : Named (List Token)} (h : Takes take s ms s') (rest : List Token) :
  Reader.members take s (Token.items .closeObject
      (ms.map fun m => .text m.1 :: .colon :: m.2) ++ rest) = .ok (s', rest)
  := by
  cases h with
  | nil s =>
    rw [List.map_nil, Token.items, List.singleton_append, Reader.members]
  | cons htake hread hmore =>
    simp only [List.map_cons, Token.items, List.cons_append, List.append_assoc]
    rw [Reader.members, member_append htake hread]
    · simp only [hmore.moreMembers]
    · intro ts hts
      cases hts

/-- Members of any names are put into sorted values one after the other. -/
theorem takes_insertAll {item : Reader Json} {parts : Named (Json × List Token)}
    (h : ∀ p ∈ parts, item.Reads p.2.2 p.2.1) (start : Named Json) :
  Takes (fun (acc : Named Json) name => .ok (item.map fun v => acc.insert name v)) start
    (parts.map fun p => (p.1, p.2.2)) (start.insertAll (parts.map fun p => (p.1, p.2.1)))
  := by
  induction parts generalizing start with
  | nil => apply Takes.nil
  | cons p parts ih =>
    have hread := h p List.mem_cons_self
    apply Takes.cons rfl (hread.map _)
    apply ih fun q hq => h q (List.mem_cons_of_mem p hq)

/-! ### Values -/

/-- A value is read from the tokens that mean it. -/
theorem reads_of_meantBy {room : Nat} {v : Json} {ts : List Token} (h : v.MeantBy room ts) :
  (value room).Reads ts v
  := by
  induction h with
  | @arr room parts h ih =>
    intro rest
    have helements : List.Forall₂ (fun w ts => (value room).Reads ts w)
        (parts.map Prod.fst) (parts.map Prod.snd) := by
      rw [List.forall₂_map_left_iff, List.forall₂_map_right_iff, List.forall₂_same]
      apply ih
    have hvalue : ∀ ts ∈ parts.map Prod.snd, Token.IsValue ts := by
      intro ts hts
      obtain ⟨p, hp, rfl⟩ := List.mem_map.1 hts
      apply (h p hp).isValue
    rw [value, Token.arrayOf, List.cons_append]
    simp only [valueWith, elements_items helements hvalue]
  | @obj room parts h ih =>
    intro rest
    rw [value, Token.recordOf, List.cons_append]
    simp only [valueWith, (takes_insertAll ih []).members]
  | @null room | @bool room | @int room | @double room | @str room =>
    intro rest
    cases room <;> rfl

/-- Every form of a canonical value is read if there is room for it. -/
theorem reads_value {room : Nat} {v : Json} {ts : List Token} (h : v.Canonical)
    (hroom : v.depth ≤ room) (hform : v.WrittenAs ts) :
  (value room).Reads ts v
  := reads_of_meantBy (h.meantBy hroom hform)

/-- Every form of an object with canonical values and each name once is read if there is room for
it, and its members are put in their order. -/
theorem reads_object {room : Nat} {ms : Named Json} {ts : List Token}
    (h : ∀ m ∈ ms, m.2.Canonical) (hnodup : (ms.map Prod.fst).Nodup)
    (hroom : (Json.obj ms).depth ≤ room) (hform : (Json.obj ms).WrittenAs ts) :
  (Reader.object room).Reads ts (Named.insertAll [] ms)
  := by
  intro rest
  obtain ⟨k, rfl, hdepth⟩ := Json.depth_obj_le_iff.1 hroom
  cases hform with
  | @obj _ parts hmembers hparts =>
    have hread : ∀ p ∈ parts, (value k).Reads p.2.2 p.2.1 := by
      intro p hp
      have hmem : (p.1, p.2.1) ∈ ms := hmembers.mem_iff.1 (List.mem_map.2 ⟨p, hp, rfl⟩)
      apply reads_value (h _ hmem) (hdepth _ hmem) (hparts p hp)
    rw [Token.recordOf, List.cons_append, ← Named.insertAll_nil_congr hmembers hnodup]
    apply (takes_insertAll hread []).members

end Reader

end TextPipeline
