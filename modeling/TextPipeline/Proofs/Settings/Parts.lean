import Mathlib.Data.List.Nodup
import TextPipeline.Proofs.SortedValues
import TextPipeline.Settings.Load

/-!
# Settings in parts

A section is made of parts that are read and changed apart from each other.  Its table is read
member by member, and still each part of the result depends on the member of its own name alone: it
is what that member gives, or what it was before if there is no such member.  Members of other names
change nothing, not even whether the table can be read.
-/

namespace TextPipeline

/-- A value is the one that is read from what is given, or the one before if nothing is. -/
def Settled {α : Type} (reads : Setting → α → Prop) (before : α) (given : Option Setting)
    (value : α) : Prop :=
  given.elim (value = before) (reads · value)

/-- A part of a section of type `σ`. -/
structure SettingPart (σ : Type) where
  {α : Type}
  name : String
  /-- The reader of the part, which may start from the value that the part has. -/
  reader : α → SettingReader α
  get : σ → α
  set : σ → α → σ

namespace SettingPart

variable {σ : Type}

/-- The field that reads and changes the part. -/
def field (part : SettingPart σ) : SettingField σ :=
  ⟨part.name, fun s v => (part.reader (part.get s) v).map (part.set s)⟩

/-- What a value makes of the part of a section. -/
def reads (part : SettingPart σ) (s : σ) (v : Setting) (value : part.α) : Prop :=
  part.reader (part.get s) v = .ok value

/-- The parts have names of their own, a change of one of them changes no other, and together they
are the whole section. -/
structure Separate (parts : List (SettingPart σ)) : Prop where
  names : (parts.map (·.name)).Nodup
  get_set : ∀ part ∈ parts, ∀ s value, part.get (part.set s value) = value
  get_set_of_ne : ∀ part ∈ parts, ∀ other ∈ parts, other.name ≠ part.name →
    ∀ s value, other.get (part.set s value) = other.get s
  ext : ∀ s s', (∀ part ∈ parts, part.get s = part.get s') → s = s'

variable {parts : List (SettingPart σ)}

/-- The field of a part is the first one of its name. -/
theorem Separate.find?_eq_some (h : Separate parts) {part : SettingPart σ} (hpart : part ∈ parts) :
  (parts.map field).find? (·.name = part.name) = some part.field
  := by
  obtain ⟨front, back, rfl⟩ := List.append_of_mem hpart
  rw [List.find?_eq_some_iff_append]
  refine ⟨by simp [field], front.map field, back.map field, by simp, ?_⟩
  intro f hf
  obtain ⟨other, hother, rfl⟩ := List.mem_map.mp hf
  have hnames := h.names
  rw [List.map_append, List.nodup_append] at hnames
  have hne := hnames.2.2 other.name (List.mem_map_of_mem hother) part.name (by simp)
  simp [field, hne]

/-- Two parts of one name are the same part. -/
theorem Separate.eq_of_name_eq (h : Separate parts) {part other : SettingPart σ}
    (hpart : part ∈ parts) (hother : other ∈ parts) (heq : other.name = part.name) :
  other = part
  := List.inj_on_of_nodup_map h.names hother hpart heq

/-- A member that is named like a part is read into that part, and then the other members are
read. -/
theorem Separate.foldlM_cons_eq_ok_iff (h : Separate parts) {part : SettingPart σ}
    (hpart : part ∈ parts) {s s' : σ} {v : Setting} {members : Named Setting} :
  ((part.name, v) :: members).foldlM (SettingField.addMember (parts.map field)) s = .ok s'
    ↔ ∃ value, part.reads s v value
      ∧ members.foldlM (SettingField.addMember (parts.map field)) (part.set s value) = .ok s'
  := by
  have hadd : SettingField.addMember (parts.map field) s (part.name, v)
      = ((part.reader (part.get s) v).map (part.set s)).mapError (·.inside part.name) := by
    rw [SettingField.addMember, h.find?_eq_some hpart]
    rfl
  rw [List.foldlM_cons, hadd]
  unfold reads
  cases part.reader (part.get s) v with
  | error e =>
    constructor
    · rintro ⟨⟩
    · rintro ⟨_, ⟨⟩, -⟩
  | ok value =>
    constructor
    · intro hok
      exact ⟨value, rfl, hok⟩
    · rintro ⟨_, ⟨⟩, hok⟩
      apply hok

/-- A member that is named like no part is passed over. -/
theorem foldlM_cons_of_forall_ne {s : σ} {member : String × Setting} {members : Named Setting}
    (h : ∀ part ∈ parts, part.name ≠ member.1) :
  (member :: members).foldlM (SettingField.addMember (parts.map field)) s
    = members.foldlM (SettingField.addMember (parts.map field)) s
  := by
  have hadd : SettingField.addMember (parts.map field) s member = .ok s := by
    have hnone : (parts.map field).find? (·.name = member.1) = none := by
      simp only [List.find?_eq_none, List.forall_mem_map, decide_eq_true_eq]
      apply h
    rw [SettingField.addMember, hnone]
  rw [List.foldlM_cons, hadd]
  rfl

/-- What has been read into one part is the end of it, and it does not matter to the others. -/
theorem Separate.settled_set_iff (h : Separate parts) {part other : SettingPart σ}
    (hpart : part ∈ parts) (hother : other ∈ parts) {s : σ} {v : Setting} {value : part.α}
    (hreads : part.reads s v value) {members : Named Setting}
    (hsorted : Named.Sorted ((part.name, v) :: members)) {result : other.α} :
  Settled (other.reads (part.set s value)) (other.get (part.set s value))
      (Named.get? other.name members) result
    ↔ Settled (other.reads s) (other.get s)
      (Named.get? other.name ((part.name, v) :: members)) result
  := by
  by_cases hname : other.name = part.name
  · obtain rfl := h.eq_of_name_eq hpart hother hname
    rw [hsorted.get?_tail, Named.get?_cons_self, h.get_set _ hother]
    constructor
    · rintro rfl
      apply hreads
    · intro hresult
      apply Except.ok.inj (hresult.symm.trans hreads)
  · unfold reads
    rw [Named.get?_cons_of_ne v members hname, h.get_set_of_ne _ hpart _ hother hname]

/-- Sorted members make a section of another one just when each part of the result is settled by
the member of its own name. -/
theorem Separate.foldlM_addMember_eq_ok_iff (h : Separate parts) {members : Named Setting}
    (hsorted : members.Sorted) {s s' : σ} :
  members.foldlM (SettingField.addMember (parts.map field)) s = .ok s'
    ↔ ∀ part ∈ parts,
      Settled (part.reads s) (part.get s) (Named.get? part.name members) (part.get s')
  := by
  induction members generalizing s with
  | nil =>
    constructor
    · rintro ⟨⟩ part hpart
      rfl
    · intro hall
      rw [h.ext s s' fun part hpart => (hall part hpart).symm]
      rfl
  | cons member members ih =>
    obtain ⟨k, v⟩ := member
    have hmembers : Named.Sorted members := (List.pairwise_cons.mp hsorted).2
    by_cases hk : ∃ part ∈ parts, part.name = k
    · obtain ⟨part, hpart, rfl⟩ := hk
      rw [h.foldlM_cons_eq_ok_iff hpart]
      constructor
      · rintro ⟨value, hreads, hrest⟩ other hother
        apply (h.settled_set_iff hpart hother hreads hsorted).mp
        apply (ih hmembers).mp hrest other hother
      · intro hall
        have hreads : part.reads s v (part.get s') := by
          have := hall part hpart
          rw [Named.get?_cons_self] at this
          apply this
        use part.get s', hreads
        apply (ih hmembers).mpr
        intro other hother
        apply (h.settled_set_iff hpart hother hreads hsorted).mpr (hall other hother)
    · have hne : ∀ part ∈ parts, part.name ≠ (k, v).1 := by
        intro part hpart heq
        apply hk ⟨part, hpart, heq⟩
      rw [foldlM_cons_of_forall_ne hne, ih hmembers]
      apply forall₂_congr
      intro part hpart
      rw [Named.get?_cons_of_ne v members (hne part hpart)]

end SettingPart

end TextPipeline
