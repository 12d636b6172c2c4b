import TextPipeline.Json.Record
import TextPipeline.Proofs.Json.ReadBack

/-!
# Fields among other members

A record that is written as an object may have its fields in any order, and members of other names
among them, as often as they come and whatever their values are.  Such members are passed over
where they stand.  The draft that has been read at some point therefore depends on nothing but the
names of the fields before it, and once all of them have come it makes the record.
-/

namespace TextPipeline

/-- The members are the fields in any order, and any values under other names among them. -/
structure FieldsAmong (fields members : Named (List Token)) : Prop where
  known : (members.filter fun m => m.1 ∈ fields.map Prod.fst).Perm fields
  others : ∀ m ∈ members, m.1 ∉ fields.map Prod.fst → Token.IsValue m.2

namespace FieldsAmong

variable {fields members : Named (List Token)}

/-- The fields may come in any order. -/
theorem of_perm (h : members.Perm fields) :
  FieldsAmong fields members
  := by
  have hnames : ∀ m ∈ members, m.1 ∈ fields.map Prod.fst := by
    intro m hm
    apply List.mem_map_of_mem (h.mem_iff.1 hm)
  constructor
  · rw [List.filter_eq_self.2]
    · apply h
    · intro m hm
      apply decide_eq_true (hnames m hm)
  · intro m hm hname
    exact absurd (hnames m hm) hname

/-- A value under another name may be inserted at any place. -/
theorem insert (front back : Named (List Token)) {m : String × List Token}
    (h : FieldsAmong fields (front ++ back)) (hname : m.1 ∉ fields.map Prod.fst)
    (hvalue : Token.IsValue m.2) :
  FieldsAmong fields (front ++ m :: back)
  := by
  constructor
  · rw [List.filter_append, List.filter_cons_of_neg (by simpa using hname), ← List.filter_append]
    apply h.known
  · intro w hw
    rw [List.mem_append, List.mem_cons] at hw
    obtain hw | rfl | hw := hw
    · apply h.others w (List.mem_append_left back hw)
    · intro _
      apply hvalue
    · apply h.others w (List.mem_append_right front hw)

/-- A member whose name is that of a field is the field. -/
theorem mem_fields (h : FieldsAmong fields members) {m : String × List Token} (hm : m ∈ members)
    (hname : m.1 ∈ fields.map Prod.fst) :
  m ∈ fields
  := by
  apply h.known.mem_iff.1
  apply List.mem_filter.2 (And.intro hm _)
  simpa using hname

/-- With values for its fields, a record is a value. -/
theorem isValue (h : FieldsAmong fields members) (hfields : ∀ m ∈ fields, Token.IsValue m.2) :
  Token.IsValue (Token.recordOf members)
  := by
  apply Token.isValue_recordOf
  intro m hm
  by_cases hname : m.1 ∈ fields.map Prod.fst
  · apply hfields m (h.mem_fields hm hname)
  · apply h.others m hm hname

end FieldsAmong


/-- A field is read into drafts that depend only on the names that have been read: it counts as set
exactly if its name has been, and its value adds the name to these. -/
structure Field.Adds {σ : Type} (field : Field σ) (ts : List Token) (draft : List String → σ) :
    Prop where
  isSet : ∀ names, field.isSet (draft names) = decide (field.name ∈ names)
  reads : ∀ names, (field.read (draft names)).Reads ts (draft (field.name :: names))

/-- A field of a draft is read into it if its value is read. -/
theorem Field.adds_of_reads {σ α β : Type} {name : String} {get : σ → Option α}
    {set : σ → β → σ} {r : Reader β} {ts : List Token} {draft : List String → σ} (value : α)
    {b : β} (hget : ∀ names, get (draft names) = if name ∈ names then some value else none)
    (hset : ∀ names, set (draft names) b = draft (name :: names)) (hread : r.Reads ts b) :
  (Field.mk name (fun d => (get d).isSome) fun d => r.map (set d)).Adds ts draft
  := by
  constructor
  · intro names
    simp only [hget]
    split <;> simp_all
  · intro names
    rw [← hset]
    apply hread.map

namespace Record

variable {σ α : Type}

/-- The names of the fields among the members, the last one first. -/
def namesRead (fields members : Named (List Token)) : List String :=
  ((members.filter fun m => m.1 ∈ fields.map Prod.fst).map Prod.fst).reverse

/-- A record is made from fields with given values: each of them is read into the drafts of names,
and with the names of all fields the draft makes the record. -/
structure Fills (r : Record σ α) (fields : Named (List Token)) (draft : List String → σ) (a : α) :
    Prop where
  names : r.fields.map Field.name = fields.map Prod.fst
  nodup : (fields.map Prod.fst).Nodup
  blank : r.blank = draft []
  adds : ∀ field ∈ r.fields, ∀ ts, (field.name, ts) ∈ fields → field.Adds ts draft
  finish : ∀ names, (∀ m ∈ fields, m.1 ∈ names) → r.finish (draft names) = .ok a

namespace Fills

variable {r : Record σ α} {fields : Named (List Token)} {draft : List String → σ} {a : α}

/-- A member that is no field is passed over. -/
theorem take_other (h : r.Fills fields draft a) {name : String}
    (hname : name ∉ fields.map Prod.fst) (s : σ) :
  r.take s name = .ok (Reader.pass s)
  := by
  have hnone : r.fields.find? (·.name = name) = none := by
    rw [List.find?_eq_none]
    intro field hfield heq
    apply hname
    rw [← h.names]
    apply List.mem_map.2 ⟨field, hfield, by simpa using heq⟩
  rw [take, hnone]

/-- A field is read if its name has not been read before. -/
theorem take_field (h : r.Fills fields draft a) {m : String × List Token} (hm : m ∈ fields)
    {names : List String} (hnew : m.1 ∉ names) :
  ∃ reader, r.take (draft names) m.1 = .ok reader ∧ reader.Reads m.2 (draft (m.1 :: names))
  := by
  obtain ⟨name, ts⟩ := m
  have hname : name ∈ r.fields.map Field.name := by
    rw [h.names]
    apply List.mem_map_of_mem (f := Prod.fst) hm
  obtain ⟨field, hfind⟩ : ∃ field, r.fields.find? (·.name = name) = some field := by
    obtain ⟨field, hfield, hfieldname⟩ := List.mem_map.1 hname
    apply Option.isSome_iff_exists.1
    rw [List.find?_isSome]
    use field, hfield
    simpa using hfieldname
  have hfield : field ∈ r.fields := List.mem_of_find?_eq_some hfind
  obtain rfl : field.name = name := by simpa using List.find?_some hfind
  have hadds := h.adds field hfield ts hm
  use field.read (draft names)
  constructor
  · rw [take, hfind]
    simp [hadds.isSet, hnew]
  · apply hadds.reads

/-- From the names that have been read, members lead to these and the names of the fields among
the members. -/
theorem takes (h : r.Fills fields draft a) {members : Named (List Token)} {names : List String}
    (hfields : ∀ m ∈ members, m.1 ∈ fields.map Prod.fst → m ∈ fields)
    (hothers : ∀ m ∈ members, m.1 ∉ fields.map Prod.fst → Token.IsValue m.2)
    (hnodup : (namesRead fields members ++ names).Nodup) :
  Reader.Takes r.take (draft names) members (draft (namesRead fields members ++ names))
  := by
  -- the names that have been read grow from member to member, and none of them comes again
  induction members generalizing names with
  | nil => apply Reader.Takes.nil
  | cons m members ih =>
    have hfields' := fun w hw => hfields w (List.mem_cons_of_mem m hw)
    have hothers' := fun w hw => hothers w (List.mem_cons_of_mem m hw)
    by_cases hname : m.1 ∈ fields.map Prod.fst
    · rw [namesRead, List.filter_cons_of_pos (by simpa using hname), List.map_cons,
        List.reverse_cons, List.append_assoc, List.singleton_append] at hnodup ⊢
      have hnew : m.1 ∉ names := (List.nodup_cons.1 (List.nodup_append.1 hnodup).2.1).1
      obtain ⟨reader, htake, hread⟩ := h.take_field (hfields m List.mem_cons_self hname) hnew
      apply Reader.Takes.cons htake hread
      apply ih hfields' hothers' hnodup
    · rw [namesRead, List.filter_cons_of_neg (by simpa using hname)] at hnodup ⊢
      have hpass := Reader.reads_pass (hothers m List.mem_cons_self hname) (draft names)
      apply Reader.Takes.cons (h.take_other hname _) hpass
      apply ih hfields' hothers' hnodup

end Fills

/-- A record is read from its fields in any order, with any values under other names among them,
if there is room for it. -/
theorem Fills.reads_recordOf {room : Nat} {r : Nat → Record σ α} {fields : Named (List Token)}
    {draft : List String → σ} {a : α} (h : (r room).Fills fields draft a)
    {members : Named (List Token)} (hmembers : FieldsAmong fields members) :
  (Record.reader (room + 1) r).Reads (Token.recordOf members) a
  := by
  intro rest
  have hperm : (namesRead fields members).Perm (fields.map Prod.fst) :=
    (List.reverse_perm _).trans (hmembers.known.map Prod.fst)
  have htakes : Reader.Takes (r room).take (r room).blank members
      (draft (namesRead fields members)) := by
    have hnodup : (namesRead fields members ++ []).Nodup := by
      rw [List.append_nil]
      apply hperm.nodup_iff.2 h.nodup
    have hrun := h.takes (fun m hm => hmembers.mem_fields hm) hmembers.others hnodup
    rw [List.append_nil, ← h.blank] at hrun
    apply hrun
  have hfinish : (r room).finish (draft (namesRead fields members)) = .ok a := by
    apply h.finish
    intro m hm
    apply hperm.mem_iff.2 (List.mem_map_of_mem hm)
  rw [Token.recordOf, List.cons_append]
  simp only [Record.reader, ofMembers, htakes.members, hfinish]

end Record

end TextPipeline
