import TextPipeline.Pipeline.Document
import TextPipeline.Proofs.Json.ReadBack

/-!
# The data of a node as members

The data of a node are made from the members of an object, from a text or from a label, and then
changed field by field.  A name has then at most one value, either the text kept apart under it or
one of the other members, and no text that should be kept apart is among these.  That is why the
data are made again from the members that are written for them.
-/

namespace TextPipeline

namespace NodeData

/-- The data can be made from nothing, from a text, from a label or from the members of an object
that satisfy `P`, and by setting fields. -/
inductive Made (P : Named Json → Prop) : NodeData → Prop where
  | empty : Made P .empty
  | ofText (text : String) : Made P (.ofText text)
  | ofLabel (label : String) : Made P (.ofLabel label)
  | ofMembers {members : Named Json} (h : P members) : Made P (.ofMembers members)
  | setField {data : NodeData} (h : Made P data) (field value : String) :
      Made P (data.setField field value)

/-- The text of a name is kept apart: a member of that name is no text, and there is none if a
text is kept. -/
def Apart (name : String) (value : Option String) (members : Named Json) : Prop :=
  ∀ v, Named.get? name members = some v → value = none ∧ ∀ s, v ≠ .str s

/-- The texts of the three names are kept apart, and the other members are sorted. -/
structure Separate (data : NodeData) : Prop where
  label : Apart "label" data.label data.extra
  text : Apart "text" data.text data.extra
  description : Apart "description" data.description data.extra
  extra : data.extra.Sorted

/-- The texts of the three names are kept apart, and the other members are canonical. -/
structure Proper (data : NodeData) : Prop where
  label : Apart "label" data.label data.extra
  text : Apart "text" data.text data.extra
  description : Apart "description" data.description data.extra
  extra : (Json.obj data.extra).Canonical

/-! ### Texts kept apart -/

/-- No member has a name under which a text is kept. -/
theorem Apart.get?_eq_none {name s : String} {members : Named Json}
    (h : Apart name (some s) members) :
  Named.get? name members = none
  := by
  cases hget : Named.get? name members with
  | none => rfl
  | some v => cases (h v hget).1

/-- A text is kept apart if it is taken away from the members. -/
theorem apart_erase (name : String) (value : Option String) (members : Named Json) :
  Apart name value (Named.erase name members)
  := by
  intro v hv
  rw [Named.get?_erase, if_pos rfl] at hv
  cases hv

/-- A text stays apart if any members are taken away. -/
theorem Apart.erase {name : String} {value : Option String} {members : Named Json}
    (h : Apart name value members) (other : String) :
  Apart name value (Named.erase other members)
  := by
  intro v hv
  rw [Named.get?_erase] at hv
  split at hv
  · cases hv
  · apply h v hv

/-- A text stays apart if a member of another name is given a value. -/
theorem Apart.insert {name other : String} {value : Option String} {members : Named Json}
    (h : Apart name value members) (hne : name ≠ other) (v : Json) :
  Apart name value (Named.insert other v members)
  := by
  intro w hw
  rw [Named.get?_insert_of_ne v members hne] at hw
  apply h w hw

/-- A text stays apart from the members with a text of another name. -/
theorem Apart.textMember {name other : String} {value : Option String} {members : Named Json}
    (h : Apart name value members) (hne : name ≠ other) (text : Option String) :
  Apart name value (NodeData.textMember other text ++ members)
  := by
  cases text with
  | none => apply h
  | some s =>
    intro v hv
    rw [NodeData.textMember, List.singleton_append, Named.get?_cons_of_ne _ _ hne] at hv
    apply h v hv

/-- No name comes twice among the members with a text that is kept apart from them. -/
theorem Apart.nodup {name : String} {value : Option String} {members : Named Json}
    (h : Apart name value members) (hnodup : (members.map Prod.fst).Nodup) :
  ((NodeData.textMember name value ++ members).map Prod.fst).Nodup
  := by
  cases value with
  | none => apply hnodup
  | some s =>
    apply List.nodup_cons.2 (And.intro _ hnodup)
    intro hmem
    obtain ⟨⟨k, v⟩, hv, rfl⟩ := List.mem_map.1 hmem
    have hnone := h.get?_eq_none
    rw [Named.get?, List.lookup_eq_none_iff] at hnone
    simpa using hnone (k, v) hv

/-! ### Taking texts -/

/-- A member that is a text is taken away from the members, and no other one is. -/
theorem takeText_cases (name : String) (members : Named Json) :
  (∃ s, Named.get? name members = some (.str s) ∧
      takeText name members = (some s, Named.erase name members)) ∨
    (∀ s, Named.get? name members ≠ some (.str s)) ∧ takeText name members = (none, members)
  := by
  unfold takeText
  split
  · next s hget => exact .inl ⟨s, hget, rfl⟩
  · next hno => exact .inr ⟨hno, rfl⟩

/-- A text that was taken is kept apart. -/
theorem apart_takeText (name : String) (members : Named Json) :
  Apart name (takeText name members).1 (takeText name members).2
  := by
  obtain ⟨s, hget, htake⟩ | ⟨hno, htake⟩ := takeText_cases name members
  · rw [htake]
    apply apart_erase
  · rw [htake]
    intro v hv
    use rfl
    rintro s rfl
    apply hno s hv

/-- A text stays apart when another one is taken. -/
theorem Apart.takeText {name : String} {value : Option String} {members : Named Json}
    (h : Apart name value members) (other : String) :
  Apart name value (NodeData.takeText other members).2
  := by
  obtain ⟨s, hget, htake⟩ | ⟨hno, htake⟩ := takeText_cases other members
  · rw [htake]
    apply h.erase
  · rw [htake]
    apply h

/-- Canonical members are canonical without some of them. -/
theorem canonical_erase {members : Named Json} (h : (Json.obj members).Canonical)
    (name : String) :
  (Json.obj (Named.erase name members)).Canonical
  := by
  cases h with
  | obj hsorted hvalues =>
    apply Json.Canonical.obj (hsorted.erase name)
    intro m hm
    apply hvalues m (List.mem_filter.1 hm).1

/-- Canonical members are canonical with one more. -/
theorem canonical_insert {members : Named Json} (h : (Json.obj members).Canonical)
    (name : String) {v : Json} (hv : v.Canonical) :
  (Json.obj (Named.insert name v members)).Canonical
  := by
  cases h with
  | obj hsorted hvalues =>
    apply Json.Canonical.obj (hsorted.insert name v)
    intro m hm
    obtain rfl | hm := Named.mem_of_mem_insert hm
    · apply hv
    · apply hvalues m hm

/-- Canonical members are canonical without a text that was taken. -/
theorem canonical_takeText {members : Named Json} (h : (Json.obj members).Canonical)
    (name : String) :
  (Json.obj (takeText name members).2).Canonical
  := by
  obtain ⟨s, hget, htake⟩ | ⟨hno, htake⟩ := takeText_cases name members
  · rw [htake]
    apply canonical_erase h
  · rw [htake]
    apply h

/-- The text that was written in front of other members is taken from them all. -/
theorem Apart.takeText_insertAll {name : String} {value : Option String} {members : Named Json}
    (h : Apart name value members) (hnodup : (members.map Prod.fst).Nodup) :
  NodeData.takeText name (Named.insertAll [] (NodeData.textMember name value ++ members))
    = (value, Named.insertAll [] members)
  := by
  cases value with
  | none =>
    rw [NodeData.textMember, List.nil_append]
    obtain ⟨s, hget, -⟩ | ⟨-, htake⟩ := takeText_cases name (Named.insertAll [] members)
    · rw [Named.get?_insertAll_nil hnodup] at hget
      cases (h _ hget).2 s rfl
    · apply htake
  | some t =>
    have hall := h.nodup hnodup
    rw [NodeData.textMember, List.singleton_append] at hall ⊢
    obtain ⟨s, hget, htake⟩ | ⟨hno, -⟩ := takeText_cases name
      (Named.insertAll [] ((name, Json.str t) :: members))
    · rw [Named.get?_insertAll_nil hall, Named.get?_cons_self] at hget
      cases hget
      rw [htake, Named.erase_insertAll_cons hall]
    · exfalso
      apply hno t
      rw [Named.get?_insertAll_nil hall, Named.get?_cons_self]

/-! ### Data whose texts are kept apart -/

/-- Members without a text that was taken are sorted if all of them are. -/
theorem sorted_takeText {members : Named Json} (h : members.Sorted) (name : String) :
  (takeText name members).2.Sorted
  := by
  obtain ⟨s, -, htake⟩ | ⟨-, htake⟩ := takeText_cases name members
  · rw [htake]
    apply h.erase
  · rw [htake]
    apply h

/-- The texts of data made from sorted members are kept apart. -/
theorem separate_ofMembers {members : Named Json} (h : members.Sorted) :
  (ofMembers members).Separate
  := by
  constructor
  · apply ((apart_takeText "label" members).takeText "text").takeText "description"
  · apply (apart_takeText "text" _).takeText "description"
  · apply apart_takeText
  · apply sorted_takeText (sorted_takeText (sorted_takeText h "label") "text")

/-- Where there are no members beside the three texts, the texts are kept apart. -/
theorem separate_of_extra_eq_nil {data : NodeData} (h : data.extra = []) :
  data.Separate
  := by
  have hapart : ∀ name value, Apart name value data.extra := by
    intro name value v hv
    rw [h] at hv
    cases hv
  refine ⟨hapart _ _, hapart _ _, hapart _ _, ?_⟩
  rw [h]
  apply List.Pairwise.nil

/-- The texts stay apart when a field is set. -/
theorem Separate.setField {data : NodeData} (h : data.Separate) (field value : String) :
  (data.setField field value).Separate
  := by
  unfold NodeData.setField
  split
  · next hfield =>
    rw [hfield]
    exact ⟨apart_erase _ _ _, h.text.erase _, h.description.erase _, h.extra.erase _⟩
  · split
    · next hfield =>
      rw [hfield]
      exact ⟨h.label.erase _, apart_erase _ _ _, h.description.erase _, h.extra.erase _⟩
    · split
      · next hfield =>
        rw [hfield]
        exact ⟨h.label.erase _, h.text.erase _, apart_erase _ _ _, h.extra.erase _⟩
      · next hlabel htext hdescription =>
        exact ⟨h.label.insert (Ne.symm hlabel) _, h.text.insert (Ne.symm htext) _,
          h.description.insert (Ne.symm hdescription) _, h.extra.insert _ _⟩

/-- The first two texts are apart from all that is written behind them. -/
theorem Separate.apart_behind {data : NodeData} (h : data.Separate) :
  Apart "label" data.label (textMember "text" data.text ++
      (textMember "description" data.description ++ data.extra)) ∧
    Apart "text" data.text (textMember "description" data.description ++ data.extra)
  := by
  constructor
  · apply (h.label.textMember (by decide) data.description).textMember (by decide)
  · apply h.text.textMember (by decide)

/-- No name comes twice among the members that are written for data whose texts are kept apart. -/
theorem Separate.nodup_toMembers {data : NodeData} (h : data.Separate) :
  (data.toMembers.map Prod.fst).Nodup
  := by
  obtain ⟨hlabel, htext⟩ := h.apart_behind
  simp only [toMembers, List.append_assoc]
  apply hlabel.nodup (htext.nodup (h.description.nodup h.extra.nodup))

/-- Data whose texts are kept apart are made again from the members that are written for them. -/
theorem Separate.ofMembers_toMembers {data : NodeData} (h : data.Separate) :
  ofMembers (Named.insertAll [] data.toMembers) = data
  := by
  obtain ⟨hlabel, htext⟩ := h.apart_behind
  have hdescription := h.description.nodup h.extra.nodup
  simp only [toMembers, List.append_assoc, ofMembers]
  rw [hlabel.takeText_insertAll (htext.nodup hdescription),
    htext.takeText_insertAll hdescription,
    h.description.takeText_insertAll h.extra.nodup, h.extra.insertAll_nil]

/-! ### Data that can be made -/

/-- Data are proper when their texts are kept apart and their other members are canonical. -/
theorem proper_iff {data : NodeData} :
  data.Proper ↔ data.Separate ∧ (Json.obj data.extra).Canonical
  := by
  constructor
  · rintro ⟨hlabel, htext, hdescription, hextra⟩
    refine ⟨⟨hlabel, htext, hdescription, ?_⟩, hextra⟩
    cases hextra with
    | obj hsorted _ => apply hsorted
  · rintro ⟨⟨hlabel, htext, hdescription, -⟩, hextra⟩
    exact ⟨hlabel, htext, hdescription, hextra⟩

/-- The data made from canonical members are proper. -/
theorem proper_ofMembers {members : Named Json} (h : (Json.obj members).Canonical) :
  (ofMembers members).Proper
  := by
  apply proper_iff.2
  constructor
  · cases h with
    | obj hsorted _ => apply separate_ofMembers hsorted
  · apply canonical_takeText (canonical_takeText (canonical_takeText h "label") "text")

/-- The data without members beside the three texts are proper. -/
theorem proper_of_extra_eq_nil {data : NodeData} (h : data.extra = []) :
  data.Proper
  := by
  apply proper_iff.2
  use separate_of_extra_eq_nil h
  rw [h]
  apply Json.Canonical.obj List.Pairwise.nil
  simp

/-- Proper data are proper with a field set. -/
theorem Proper.setField {data : NodeData} (h : data.Proper) (field value : String) :
  (data.setField field value).Proper
  := by
  obtain ⟨hseparate, hextra⟩ := proper_iff.1 h
  apply proper_iff.2
  use hseparate.setField field value
  unfold NodeData.setField
  split
  · apply canonical_erase hextra
  · split
    · apply canonical_erase hextra
    · split
      · apply canonical_erase hextra
      · apply canonical_insert hextra field (.str value)

/-- The texts of data that can be made from sorted members are kept apart. -/
theorem Made.separate {data : NodeData} (h : data.Made Named.Sorted) :
  data.Separate
  := by
  induction h with
  | empty => apply separate_of_extra_eq_nil rfl
  | ofText text => apply separate_of_extra_eq_nil rfl
  | ofLabel label => apply separate_of_extra_eq_nil rfl
  | ofMembers h => apply separate_ofMembers h
  | setField _ field value ih => apply ih.setField

/-- The data that can be made from canonical members are proper. -/
theorem Made.proper {data : NodeData} (h : data.Made Named.Canonical) :
  data.Proper
  := by
  induction h with
  | empty => apply proper_of_extra_eq_nil rfl
  | ofText text => apply proper_of_extra_eq_nil rfl
  | ofLabel label => apply proper_of_extra_eq_nil rfl
  | ofMembers h => apply proper_ofMembers h
  | setField _ field value ih => apply ih.setField

/-- The texts of proper data are kept apart. -/
theorem Proper.separate {data : NodeData} (h : data.Proper) :
  data.Separate
  := (proper_iff.1 h).1

/-! ### Written members -/

/-- A member that is written is a text, or it is one of the other members. -/
theorem mem_toMembers {data : NodeData} {m : String × Json} (h : m ∈ data.toMembers) :
  (∃ s, m.2 = .str s) ∨ m ∈ data.extra
  := by
  have htext : ∀ name value, m ∈ textMember name value → ∃ s, m.2 = .str s := by
    intro name value hm
    cases value with
    | none => cases hm
    | some s =>
      rw [textMember, List.mem_singleton] at hm
      use s
      rw [hm]
  simp only [toMembers, List.mem_append] at h
  obtain ((hm | hm) | hm) | hm := h
  · apply Or.inl (htext _ _ hm)
  · apply Or.inl (htext _ _ hm)
  · apply Or.inl (htext _ _ hm)
  · apply Or.inr hm

/-- The members that are written for proper data are canonical. -/
theorem Proper.canonical_toMembers {data : NodeData} (h : data.Proper) :
  ∀ m ∈ data.toMembers, m.2.Canonical
  := by
  intro m hm
  obtain ⟨s, hs⟩ | hextra := mem_toMembers hm
  · rw [hs]
    apply Json.Canonical.str
  · cases h.extra with
    | obj _ hvalues => apply hvalues m hextra

/-- The members that remain when a text is taken were there before. -/
theorem mem_of_mem_takeText {name : String} {members : Named Json} {m : String × Json}
    (h : m ∈ (takeText name members).2) :
  m ∈ members
  := by
  obtain ⟨s, hget, htake⟩ | ⟨hno, htake⟩ := takeText_cases name members
  · rw [htake] at h
    apply (List.mem_filter.1 h).1
  · rw [htake] at h
    apply h

/-- The data made from members are no deeper than their object. -/
theorem depth_toJson_ofMembers {members : Named Json} {n : Nat}
    (h : (Json.obj members).depth ≤ n) :
  (ofMembers members).toJson.depth ≤ n
  := by
  obtain ⟨k, rfl, hdepth⟩ := Json.depth_obj_le_iff.1 h
  apply Json.depth_obj_le_iff.2
  use k, rfl
  intro m hm
  obtain ⟨s, hs⟩ | hextra := mem_toMembers hm
  · rw [hs]
    apply Nat.zero_le
  · apply hdepth m (mem_of_mem_takeText (mem_of_mem_takeText (mem_of_mem_takeText hextra)))

end NodeData

end TextPipeline
