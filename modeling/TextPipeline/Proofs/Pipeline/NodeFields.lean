import TextPipeline.Proofs.Pipeline.NodeData

/-!
# The data of a node as an object

The data of a node stand for one object, whose members are the texts that are kept apart and the
other members together.  Data that are made from an object stand for that object and have each of
its members once, and data are made again from the object they stand for.  To set a field is to
give its name a text in the object, wherever the data keep the field.
-/

namespace TextPipeline

namespace NodeData

variable {data : NodeData}

/-- The members of the object that the data stand for, sorted by name. -/
def object (data : NodeData) : Named Json :=
  Named.insertAll [] data.toMembers

/-! ### Data made from an object -/

/-- A text that was taken from the members and the others are all the members. -/
theorem perm_takeText {members : Named Json} (h : (members.map Prod.fst).Nodup) (name : String) :
  (textMember name (takeText name members).1 ++ (takeText name members).2).Perm members
  := by
  obtain ⟨s, hget, htake⟩ | ⟨-, htake⟩ := takeText_cases name members
  · rw [htake]
    apply Named.cons_erase_perm h hget
  · rw [htake]
    apply List.Perm.refl

/-- Data that are made from members are written with the same members. -/
theorem toMembers_ofMembers_perm {members : Named Json} (h : members.Sorted) :
  (ofMembers members).toMembers.Perm members
  := by
  have hlabel := sorted_takeText h "label"
  have htext := sorted_takeText hlabel "text"
  simp only [ofMembers, toMembers, List.append_assoc]
  apply List.Perm.trans _ (perm_takeText h.nodup "label")
  apply List.Perm.append_left
  apply List.Perm.trans _ (perm_takeText hlabel.nodup "text")
  apply List.Perm.append_left
  apply perm_takeText htext.nodup "description"

/-- Data that are made from an object stand for it. -/
theorem object_ofMembers {members : Named Json} (h : members.Sorted) :
  (ofMembers members).object = members
  := by
  rw [object, Named.insertAll_nil_congr (toMembers_ofMembers_perm h) h.nodup, h.insertAll_nil]

/-! ### Fields -/

/-- The text that is kept apart under a name. -/
def keptText (data : NodeData) (name : String) : Option String :=
  if name = "label" then data.label
  else if name = "text" then data.text
  else if name = "description" then data.description
  else none

/-- The member that holds a text has its name and no other one. -/
theorem get?_textMember (name other : String) (text : Option String) :
  Named.get? other (textMember name text) = if other = name then text.map .str else none
  := by
  cases text with
  | none => simp [textMember, Named.get?]
  | some s =>
    rw [textMember]
    split
    · next heq =>
      rw [heq, Named.get?_cons_self]
      rfl
    · next hne =>
      rw [Named.get?_cons_of_ne _ _ hne]
      rfl

/-- Under a name the text is written that is kept apart, or else the member of that name. -/
theorem get?_toMembers (data : NodeData) (name : String) :
  Named.get? name data.toMembers
    = ((data.keptText name).map .str).or (Named.get? name data.extra)
  := by
  simp only [toMembers, Named.get?_append, get?_textMember, keptText]
  split
  · next heq => simp [heq]
  · split
    · next heq => simp [heq]
    · split
      · next heq => simp [heq]
      · rfl

/-- A field that is set has the text. -/
theorem get?_toMembers_setField_self (data : NodeData) (field value : String) :
  Named.get? field (data.setField field value).toMembers = some (.str value)
  := by
  rw [get?_toMembers, setField]
  split
  · next h => simp [keptText, h]
  · split
    · next h => simp [keptText, h]
    · split
      · next h => simp [keptText, h]
      · next hlabel htext hdescription =>
        simp [keptText, hlabel, htext, hdescription, Named.get?_insert_self]

/-- The fields that are not set have what they had. -/
theorem get?_toMembers_setField_of_ne (data : NodeData) (value : String) {field name : String}
    (hne : name ≠ field) :
  Named.get? name (data.setField field value).toMembers = Named.get? name data.toMembers
  := by
  rw [get?_toMembers, get?_toMembers, setField]
  split
  · next h =>
    rw [h] at hne ⊢
    simp [keptText, hne, Named.get?_erase]
  · split
    · next h =>
      rw [h] at hne ⊢
      simp [keptText, hne, Named.get?_erase]
    · split
      · next h =>
        rw [h] at hne ⊢
        simp [keptText, hne, Named.get?_erase]
      · rw [Named.get?_insert_of_ne _ _ hne]
        rfl

/-- The members of the object that data stand for are sorted. -/
theorem sorted_object (data : NodeData) :
  data.object.Sorted
  := Named.sorted_insertAll_nil data.toMembers

/-- A name is looked up in the object as in the members that are written, if the texts are kept
apart. -/
theorem Separate.get?_object (h : data.Separate) (name : String) :
  Named.get? name data.object = Named.get? name data.toMembers
  := Named.get?_insertAll_nil h.nodup_toMembers name

/-- To set a field is to give its name the text in the object. -/
theorem Separate.object_setField (h : data.Separate) (field value : String) :
  (data.setField field value).object = data.object.insert field (.str value)
  := by
  apply Named.Sorted.ext (sorted_object _) ((sorted_object data).insert field (.str value))
  intro name
  rw [(h.setField field value).get?_object]
  by_cases hname : name = field
  · rw [hname, get?_toMembers_setField_self, Named.get?_insert_self]
  · rw [get?_toMembers_setField_of_ne data value hname, Named.get?_insert_of_ne _ _ hname,
      h.get?_object]

/-- Data that are made from an object stand for it, whatever the values in it are, and are written
with each of its members once.  Data that are made in any way have no name twice among the members
that are written for them, and are made again from the object they stand for.  Setting a field of
them, whichever it is, gives its name the text in the object and leaves all other names what they
had. -/
theorem object_view :
  (∀ members : Named Json, members.Sorted →
    (ofMembers members).object = members ∧ (ofMembers members).toMembers.Perm members) ∧
  ∀ data : NodeData, data.Made Named.Sorted →
    (data.toMembers.map Prod.fst).Nodup ∧ ofMembers data.object = data ∧
    ∀ field value : String,
      (data.setField field value).object = data.object.insert field (.str value) ∧
      Named.get? field (data.setField field value).object = some (.str value) ∧
      ∀ name ≠ field,
        Named.get? name (data.setField field value).object = Named.get? name data.object
  := by
  constructor
  · intro members h
    exact ⟨object_ofMembers h, toMembers_ofMembers_perm h⟩
  · intro data h
    have hseparate := h.separate
    refine ⟨hseparate.nodup_toMembers, hseparate.ofMembers_toMembers, ?_⟩
    intro field value
    have hset := hseparate.object_setField field value
    refine ⟨hset, ?_, ?_⟩
    · rw [hset, Named.get?_insert_self]
    · intro name hname
      rw [hset, Named.get?_insert_of_ne _ _ hname]

/-- The members of an object whose label is a number and whose description is nothing. -/
def unlabelled : Named Json :=
  [("description", .null), ("label", .int 42), ("text", .str "Input Text")]

/-- The object with the number as its label is kept, the number gives way to a label that is set,
and an unknown field is added. -/
theorem object_unlabelled :
  unlabelled.Sorted ∧ (ofMembers unlabelled).Made Named.Sorted ∧
    (ofMembers unlabelled).object = unlabelled ∧ (ofMembers unlabelled).label = none ∧
    ((ofMembers unlabelled).setField "label" "Hello").object
      = [("description", .null), ("label", .str "Hello"), ("text", .str "Input Text")] ∧
    (((ofMembers unlabelled).setField "label" "Hello").setField "model" "small").object
      = [("description", .null), ("label", .str "Hello"), ("model", .str "small"),
          ("text", .str "Input Text")]
  := by
  have hsorted : unlabelled.Sorted := by
    simp only [unlabelled, Named.Sorted]
    decide
  have hdata : (ofMembers unlabelled).Made Named.Sorted := .ofMembers hsorted
  obtain ⟨hmade, hview⟩ := object_view
  have hobject := (hmade unlabelled hsorted).1
  have hlabel : ((ofMembers unlabelled).setField "label" "Hello").object
      = [("description", .null), ("label", .str "Hello"), ("text", .str "Input Text")] := by
    rw [((hview _ hdata).2.2 "label" "Hello").1, hobject]
    decide
  refine ⟨hsorted, hdata, hobject, by decide, hlabel, ?_⟩
  rw [((hview _ (hdata.setField "label" "Hello")).2.2 "model" "small").1, hlabel]
  decide

end NodeData

end TextPipeline
