import TextPipeline.Proofs.Json.ReadBack

/-!
# The meaning of texts

A text means a value if it spells tokens that mean the value.  Values are read from the texts that
mean them and from no others: whatever a reader of values takes is made up as the tokens of a value
must be.  So a text means at most one value, and what the members of an object are is told by the
text alone, where the last one of a name counts.
-/

namespace TextPipeline

namespace Token

/-- There is no junk in items behind commas if there is none in each. -/
theorem junk_notMem_moreItems {close : Token} (hclose : .junk ≠ close) {its : List (List Token)}
    (h : ∀ item ∈ its, .junk ∉ item) :
  .junk ∉ moreItems close its
  := by
  induction its with
  | nil => simpa [moreItems] using hclose
  | cons item its ih =>
    have hmore := ih fun item' hitem' => h item' (List.mem_cons_of_mem _ hitem')
    simp [moreItems, h item List.mem_cons_self, hmore]

/-- There is no junk in items if there is none in each. -/
theorem junk_notMem_items {close : Token} (hclose : .junk ≠ close) {its : List (List Token)}
    (h : ∀ item ∈ its, .junk ∉ item) :
  .junk ∉ items close its
  := by
  cases its with
  | nil => simpa [items] using hclose
  | cons item its =>
    have hmore := junk_notMem_moreItems hclose fun item' hitem' =>
      h item' (List.mem_cons_of_mem _ hitem')
    simp [items, h item List.mem_cons_self, hmore]

/-- There is no junk in a value. -/
theorem IsValue.junk_notMem {ts : List Token} (h : IsValue ts) :
  .junk ∉ ts
  := by
  induction h with
  | @scalar t h =>
    rintro hjunk
    rw [← List.mem_singleton.1 hjunk] at h
    cases h
  | array _ ih =>
    have hitems := junk_notMem_items (by simp : Token.junk ≠ .closeArray) ih
    simpa [arrayOf] using hitems
  | @object members hnames _ ih =>
    have hitems : .junk ∉ items .closeObject (members.map fun m => m.1 :: .colon :: m.2) := by
      apply junk_notMem_items (by simp)
      intro item hitem
      obtain ⟨m, hm, rfl⟩ := List.mem_map.1 hitem
      have hname : .junk ≠ m.1 := by
        intro hjunk
        have hstring := hnames m hm
        rw [← hjunk] at hstring
        cases hstring
      simp [hname, ih m hm]
    simpa [objectOf] using hitems

end Token

namespace Reader

variable {α : Type}

/-- Whatever the reader reads, the tokens that it takes are related to the value. -/
def Admits (r : Reader α) (R : α → List Token → Prop) : Prop :=
  ∀ ts a rest, r.run ts = .ok (a, rest) → ∃ front, ts = front ++ rest ∧ R a front

/-- The elements that follow the first one are taken from items behind commas. -/
theorem Admits.moreElements {item : Reader α} {R : α → List Token → Prop} (h : item.Admits R)
    {ts rest : List Token} {as : List α} (hrun : Reader.moreElements item ts = .ok (as, rest)) :
  ∃ parts : List (α × List Token), (∀ p ∈ parts, R p.1 p.2) ∧ as = parts.map Prod.fst ∧
    ts = Token.moreItems .closeArray (parts.map Prod.snd) ++ rest
  := by
  fun_induction Reader.moreElements item ts generalizing as rest with
  | case1 ts =>
    cases hrun
    exact ⟨[], by simp, rfl, rfl⟩
  | case2 ts e hr => cases hrun
  | case3 ts a after hr e hm ih => cases hrun
  | case4 ts a mid hr bs after hm ih =>
    cases hrun
    obtain ⟨front, rfl, ha⟩ := h ts a mid hr
    obtain ⟨parts, hparts, rfl, rfl⟩ := ih hm
    refine ⟨(a, front) :: parts, ?_, rfl, ?_⟩
    · intro p hp
      obtain rfl | hp := List.mem_cons.1 hp
      · apply ha
      · apply hparts p hp
    · simp [Token.moreItems]
  | case5 => cases hrun

/-- The elements of an array are taken from items. -/
theorem Admits.elements {item : Reader α} {R : α → List Token → Prop} (h : item.Admits R)
    {ts rest : List Token} {as : List α} (hrun : Reader.elements item ts = .ok (as, rest)) :
  ∃ parts : List (α × List Token), (∀ p ∈ parts, R p.1 p.2) ∧ as = parts.map Prod.fst ∧
    ts = Token.items .closeArray (parts.map Prod.snd) ++ rest
  := by
  unfold Reader.elements at hrun
  split at hrun
  · cases hrun
    exact ⟨[], by simp, rfl, rfl⟩
  · split at hrun
    · cases hrun
    · next a mid hr =>
      split at hrun
      · cases hrun
      · next bs after hm =>
        cases hrun
        obtain ⟨front, rfl, ha⟩ := h _ a mid hr
        obtain ⟨parts, hparts, rfl, rfl⟩ := h.moreElements hm
        refine ⟨(a, front) :: parts, ?_, rfl, ?_⟩
        · intro p hp
          obtain rfl | hp := List.mem_cons.1 hp
          · apply ha
          · apply hparts p hp
        · simp [Token.items]

/-- A member is taken from its name, a colon and a value, and is put into those before it. -/
theorem Admits.member {item : Reader α} {R : α → List Token → Prop} (h : item.Admits R)
    {ms ms' : Named α} {ts rest : List Token}
    (hrun : Reader.member (fun (ms : Named α) name => .ok (item.map fun v => ms.insert name v))
      ms ts = .ok (ms', rest)) :
  ∃ name v front, R v front ∧ ms' = ms.insert name v ∧
    ts = .text name :: .colon :: (front ++ rest)
  := by
  unfold Reader.member at hrun
  split at hrun
  · next name ts =>
    simp only at hrun
    split at hrun
    · next ts =>
      simp only [Reader.map] at hrun
      split at hrun
      · next v rest' hr =>
        cases hrun
        obtain ⟨front, rfl, hv⟩ := h ts v rest hr
        exact ⟨name, v, front, hv, rfl, rfl⟩
      · cases hrun
    · cases hrun
  · cases hrun

/-- The members that follow the first one are taken from items behind commas, and each is put into
those before it. -/
theorem Admits.moreMembers {item : Reader α} {R : α → List Token → Prop} (h : item.Admits R)
    {ms ms' : Named α} {ts rest : List Token}
    (hrun : Reader.moreMembers (fun (ms : Named α) name => .ok (item.map fun v => ms.insert name v))
      ms ts = .ok (ms', rest)) :
  ∃ parts : Named (α × List Token), (∀ p ∈ parts, R p.2.1 p.2.2) ∧
    ms' = ms.insertAll (parts.map fun p => (p.1, p.2.1)) ∧
    ts = Token.moreItems .closeObject
      (parts.map fun p => .text p.1 :: .colon :: p.2.2) ++ rest
  := by
  fun_induction Reader.moreMembers _ ms ts with
  | case1 ms ts =>
    cases hrun
    exact ⟨[], by simp, rfl, rfl⟩
  | case2 ms ts e hm => cases hrun
  | case3 ms ts mid rest' hm ih =>
    obtain ⟨name, v, front, hv, rfl, rfl⟩ := h.member hm
    obtain ⟨parts, hparts, rfl, rfl⟩ := ih hrun
    refine ⟨(name, v, front) :: parts, ?_, rfl, ?_⟩
    · intro p hp
      obtain rfl | hp := List.mem_cons.1 hp
      · apply hv
      · apply hparts p hp
    · simp [Token.moreItems]
  | case4 => cases hrun

/-- The members of an object are taken from items, and each is put into those before it. -/
theorem Admits.members {item : Reader α} {R : α → List Token → Prop} (h : item.Admits R)
    {ms ms' : Named α} {ts rest : List Token}
    (hrun : Reader.members (fun (ms : Named α) name => .ok (item.map fun v => ms.insert name v))
      ms ts = .ok (ms', rest)) :
  ∃ parts : Named (α × List Token), (∀ p ∈ parts, R p.2.1 p.2.2) ∧
    ms' = ms.insertAll (parts.map fun p => (p.1, p.2.1)) ∧
    ts = Token.items .closeObject (parts.map fun p => .text p.1 :: .colon :: p.2.2) ++ rest
  := by
  unfold Reader.members at hrun
  split at hrun
  · cases hrun
    exact ⟨[], by simp, rfl, rfl⟩
  · split at hrun
    · cases hrun
    · next mid rest' hm =>
      obtain ⟨name, v, front, hv, rfl, rfl⟩ := h.member hm
      obtain ⟨parts, hparts, rfl, rfl⟩ := h.moreMembers hrun
      refine ⟨(name, v, front) :: parts, ?_, rfl, ?_⟩
      · intro p hp
        obtain rfl | hp := List.mem_cons.1 hp
        · apply hv
        · apply hparts p hp
      · simp [Token.items]

/-- A value is taken from tokens that mean it if the values inside arrays and objects are. -/
theorem admits_valueWith {room : Nat} {inner : Option (Reader Json)}
    (h : ∀ item, inner = some item → ∃ k, room = k + 1 ∧ item.Admits (Json.MeantBy k)) :
  (valueWith inner).Admits (Json.MeantBy room)
  := by
  intro ts v rest hrun
  simp only [valueWith] at hrun
  split at hrun
  case h_1 =>
    cases hrun
    exact ⟨_, rfl, .null⟩
  case h_2 b ts =>
    cases hrun
    exact ⟨_, rfl, .bool b⟩
  case h_3 n ts =>
    cases hrun
    cases n with
    | int i => exact ⟨_, rfl, .int i⟩
    | double d => exact ⟨_, rfl, .double d⟩
  case h_4 s ts =>
    cases hrun
    exact ⟨_, rfl, .str s⟩
  case h_5 ts =>
    split at hrun
    · cases hrun
    · next item =>
      obtain ⟨k, rfl, hitem⟩ := h item rfl
      split at hrun
      · cases hrun
      · next vs after he =>
        cases hrun
        obtain ⟨parts, hparts, rfl, rfl⟩ := hitem.elements he
        exact ⟨_, rfl, .arr hparts⟩
  case h_6 ts =>
    split at hrun
    · cases hrun
    · next item =>
      obtain ⟨k, rfl, hitem⟩ := h item rfl
      split at hrun
      · cases hrun
      · next ms after he =>
        cases hrun
        obtain ⟨parts, hparts, rfl, rfl⟩ := hitem.members he
        exact ⟨_, by simp [Token.recordOf, Function.comp_def], .obj hparts⟩
  case h_7 => cases hrun

/-- Values are taken from no tokens but those that mean them. -/
theorem admits_value (room : Nat) :
  (value room).Admits (Json.MeantBy room)
  := by
  induction room with
  | zero =>
    apply admits_valueWith
    intro item hitem
    cases hitem
  | succ room ih =>
    apply admits_valueWith
    intro item hitem
    cases hitem
    exact ⟨room, rfl, ih⟩

end Reader

namespace Json

/-- The text means the value. -/
def Meant (v : Json) (text : String) : Prop :=
  ∃ ts, Token.SpellsAll ts text.toList ∧ v.MeantBy maxDepth ts

/-- The text means an object and has the given members, in their order and with all repetitions. -/
def HasMembers (text : String) (members : Named Json) : Prop :=
  ∃ (room : Nat) (parts : Named (Json × List Token)), room + 1 = maxDepth ∧
    Token.SpellsAll (Token.recordOf (parts.map fun p => (p.1, p.2.2))) text.toList ∧
    (∀ p ∈ parts, p.2.1.MeantBy room p.2.2) ∧ (parts.map fun p => (p.1, p.2.1)) = members

/-- The text means an object, and of its members that have the given name the last one has the
given value. -/
def HasMember (text name : String) (v : Json) : Prop :=
  ∃ front back, HasMembers text (front ++ (name, v) :: back) ∧ ∀ m ∈ back, m.1 ≠ name

/-- Exactly the values are read from a text that it means. -/
theorem parse_eq_ok_iff {text : String} {v : Json} :
  parse text = .ok v ↔ v.Meant text
  := by
  constructor
  · intro hread
    rw [parse, Reader.whole] at hread
    split at hread
    · next v hrun =>
      cases hread
      obtain ⟨ts, hscan, hmeant⟩ := Reader.admits_value maxDepth _ _ _ hrun
      rw [List.append_nil] at hscan
      use ts
      constructor
      · rw [← hscan]
        apply Token.spellsAll_scan
        rw [hscan]
        apply hmeant.isValue.junk_notMem
      · apply hmeant
    · cases hread
    · cases hread
  · rintro ⟨ts, hspells, hmeant⟩
    rw [parse, hspells.scan_eq hmeant.isValue.apart]
    apply (Reader.reads_of_meantBy hmeant).whole

/-- The members of an object that is read are those of the text, one put in after the other. -/
theorem parse_eq_ok_obj_iff {text : String} {ms : Named Json} :
  parse text = .ok (.obj ms) ↔ ∃ members, HasMembers text members ∧ ms = Named.insertAll [] members
  := by
  rw [parse_eq_ok_iff]
  constructor
  · rintro ⟨ts, hspells, hmeant⟩
    generalize hroom : maxDepth = depth at hmeant
    cases hmeant with
    | @obj room parts hparts => exact ⟨_, ⟨room, parts, hroom.symm, hspells, hparts, rfl⟩, rfl⟩
  · rintro ⟨_, ⟨room, parts, hroom, hspells, hparts, rfl⟩, rfl⟩
    refine ⟨_, hspells, ?_⟩
    rw [← hroom]
    apply MeantBy.obj hparts

/-- The text of a canonical object has the members of the object, if there is room for them and the
numbers in them are read back. -/
theorem Canonical.hasMembers_text {ms : Named Json} (h : (Json.obj ms).Canonical)
    (hread : ∀ d ∈ (Json.obj ms).doubles, d.ReadsBack) (hroom : (Json.obj ms).depth ≤ maxDepth)
    (layout : Layout) :
  HasMembers ((Json.obj ms).text layout) ms
  := by
  obtain ⟨room, hmax, hdepth⟩ := depth_obj_le_iff.1 hroom
  refine ⟨room, ms.map fun m => (m.1, m.2, m.2.tokens), hmax.symm, ?_, ?_, ?_⟩
  · rw [List.map_map, Function.comp_def, ← tokens_obj]
    apply h.fits.spellsAll_text hread
  · intro p hp
    obtain ⟨m, hm, rfl⟩ := List.mem_map.1 hp
    cases h with
    | obj _ hcanonical =>
      have hvalue := hcanonical m hm
      apply hvalue.meantBy (hdepth m hm) hvalue.fits.writtenAs_tokens
  · rw [List.map_map]
    apply List.map_id

/-- A canonical object is read back from its text if the numbers in it are. -/
theorem Canonical.parse_text {ms : Named Json} (h : (Json.obj ms).Canonical)
    (hread : ∀ d ∈ (Json.obj ms).doubles, d.ReadsBack) (hroom : (Json.obj ms).depth ≤ maxDepth)
    (layout : Layout) :
  parse ((Json.obj ms).text layout) = .ok (.obj ms)
  := by
  apply parse_eq_ok_obj_iff.2
  use ms, h.hasMembers_text hread hroom layout
  cases h with
  | obj hsorted _ => rw [hsorted.insertAll_nil]

/-- What is found under a name in an object that is read is the last member of that name. -/
theorem hasMember_iff {text name : String} {v : Json} :
  HasMember text name v ↔ ∃ ms, parse text = .ok (.obj ms) ∧ Named.get? name ms = some v
  := by
  constructor
  · rintro ⟨front, back, hmembers, hback⟩
    refine ⟨_, parse_eq_ok_obj_iff.2 ⟨_, hmembers, rfl⟩, ?_⟩
    apply Named.get?_insertAll_nil_eq_some_iff.2 ⟨front, back, rfl, hback⟩
  · rintro ⟨ms, hread, hget⟩
    obtain ⟨members, hmembers, rfl⟩ := parse_eq_ok_obj_iff.1 hread
    obtain ⟨front, back, rfl, hback⟩ := Named.get?_insertAll_nil_eq_some_iff.1 hget
    exact ⟨front, back, hmembers, hback⟩

end Json

end TextPipeline
