import Mathlib.Data.List.Basic
import TextPipeline.Proofs.Toml.Tables
import TextPipeline.Settings.Environment

/-!
# Layers of settings

The tables of a layer are sorted by name, be it the layer of a file or that of the environment, and
so are those of merged layers.  What merged layers hold at a path of two names is what the later
layer holds there, or else the earlier one, as long as both have tables under the first name: a
later table never hides what an earlier one gives under another name.
-/

namespace TextPipeline

namespace Setting

/-- All tables in a setting are sorted by name. -/
inductive Ordered : Setting → Prop where
  | scalar (origin : Origin) (value : Scalar) : Ordered (.scalar origin value)
  | list {origin : Origin} {elements : List Setting} (h : ∀ v ∈ elements, Ordered v) :
      Ordered (.list origin elements)
  | table {origin : Origin} {members : Named Setting} (hsorted : members.Sorted)
      (h : ∀ m ∈ members, Ordered m.2) : Ordered (.table origin members)

/-- The members of a table, with all tables in them sorted by name. -/
abbrev OrderedMembers : Named Setting → Prop :=
  Named.Tidy Ordered

theorem OrderedMembers.table {members : Named Setting} (h : OrderedMembers members)
    (origin : Origin) :
  Ordered (.table origin members)
  := .table h.sorted h.all

theorem Ordered.members {origin : Origin} {members : Named Setting}
    (h : Ordered (.table origin members)) :
  OrderedMembers members
  := by
  cases h with
  | table hsorted hall => exact ⟨hsorted, hall⟩

/-! ### Files -/

/-- The settings that the members of a table make have the names of the members. -/
theorem map_fst_ofMembers {vs : List (String × Toml)} {ms : List (String × Setting)}
    (h : ofMembers vs = some ms) :
  ms.map Prod.fst = vs.map Prod.fst
  := by
  induction vs generalizing ms with
  | nil =>
    cases h
    rfl
  | cons v vs ih =>
    obtain ⟨k, v⟩ := v
    simp only [ofMembers, bind, Option.bind_eq_some_iff, pure, Option.some.injEq] at h
    obtain ⟨s, -, ms', hms', rfl⟩ := h
    simp only [List.map_cons, ih hms']

/-- The settings that the members of a sorted table make are sorted. -/
theorem sorted_ofMembers {vs : Named Toml} (h : vs.Sorted) {ms : Named Setting}
    (hms : ofMembers vs = some ms) :
  ms.Sorted
  := by
  have hvs : (vs.map Prod.fst).Pairwise (· < ·) := List.pairwise_map.mpr h
  rw [← map_fst_ofMembers hms] at hvs
  apply List.pairwise_map.mp hvs

/-- The setting that a table of a file makes is sorted if its members are. -/
theorem ordered_ofTable {ms : Named Setting} (h : OrderedMembers ms) {s : Setting}
    (hs : ofTable ms = some s) :
  s.Ordered
  := by
  rw [ofTable] at hs
  split at hs
  · cases hs
  · cases hs
    cases hcontent : Named.get? contentName ms with
    | none => apply h.table
    | some content => apply h.get? hcontent

mutual

/-- The setting that a value of a file makes is sorted if the value is. -/
theorem ordered_ofToml {v : Toml} (h : v.Ordered) {s : Setting} (hs : ofToml v = some s) :
  s.Ordered
  := by
  cases v with
  | text value =>
    cases hs
    apply Ordered.scalar
  | integer value =>
    cases hs
    apply Ordered.scalar
  | float value =>
    cases hs
    apply Ordered.scalar
  | bool value =>
    cases hs
    apply Ordered.scalar
  | moment text =>
    cases hs
    apply OrderedMembers.table (.single (.scalar _ _) _)
  | array elements =>
    rw [ofToml] at hs
    obtain ⟨ss, hss, rfl⟩ := Option.map_eq_some_iff.mp hs
    cases h with
    | array hall => apply Ordered.list (ordered_ofElements hall hss)
  | table form members =>
    rw [ofToml] at hs
    obtain ⟨ms, hms, htable⟩ := Option.bind_eq_some_iff.mp hs
    cases h with
    | table hsorted hall =>
      apply ordered_ofTable ⟨sorted_ofMembers hsorted hms, ordered_ofMembers hall hms⟩ htable
  | tables elements =>
    rw [ofToml] at hs
    obtain ⟨ss, hss, rfl⟩ := Option.map_eq_some_iff.mp hs
    cases h with
    | tables hall => apply Ordered.list (ordered_ofElements hall hss)

/-- The settings that the elements of an array make are sorted if the elements are. -/
theorem ordered_ofElements {vs : List Toml} (h : ∀ v ∈ vs, v.Ordered) {ss : List Setting}
    (hss : ofElements vs = some ss) :
  ∀ s ∈ ss, s.Ordered
  := by
  cases vs with
  | nil =>
    cases hss
    simp
  | cons v vs =>
    simp only [ofElements, bind, Option.bind_eq_some_iff, pure, Option.some.injEq] at hss
    obtain ⟨s, hs, ss', hss', rfl⟩ := hss
    rw [List.forall_mem_cons] at h ⊢
    use ordered_ofToml h.1 hs, ordered_ofElements h.2 hss'

/-- The settings that the members of a table make are sorted if the members are. -/
theorem ordered_ofMembers {vs : List (String × Toml)} (h : ∀ v ∈ vs, v.2.Ordered)
    {ms : List (String × Setting)} (hms : ofMembers vs = some ms) :
  ∀ m ∈ ms, m.2.Ordered
  := by
  cases vs with
  | nil =>
    cases hms
    simp
  | cons v vs =>
    obtain ⟨k, v⟩ := v
    simp only [ofMembers, bind, Option.bind_eq_some_iff, pure, Option.some.injEq] at hms
    obtain ⟨s, hs, ms', hms', rfl⟩ := hms
    rw [List.forall_mem_cons] at h ⊢
    use ordered_ofToml h.1 hs, ordered_ofMembers h.2 hms'

end

/-- All tables of a file are sorted by name. -/
theorem orderedMembers_fileLayer {text : String} {layer : Named Setting}
    (h : fileLayer text = some layer) :
  OrderedMembers layer
  := by
  obtain ⟨members, hparse, hlayer⟩ := Option.bind_eq_some_iff.mp h
  have hmembers := Toml.orderedMembers_of_parse hparse
  use sorted_ofMembers hmembers.sorted hlayer, ordered_ofMembers hmembers.all hlayer

/-! ### Merged layers -/

mutual

/-- A value over a value is sorted if both are. -/
theorem Ordered.merge {earlier later : Setting} (h : earlier.Ordered) (hlater : later.Ordered) :
  (earlier.merge later).Ordered
  := by
  cases later with
  | scalar origin value => cases earlier <;> apply hlater
  | list origin elements => cases earlier <;> apply hlater
  | table origin later =>
    cases earlier with
    | scalar _ _ => apply hlater
    | list _ _ => apply hlater
    | table _ ms =>
      cases hlater with
      | table _ hall => apply (h.members.merge hall).table

/-- Members with later ones over them are sorted if they are and the values of the later ones
are. -/
theorem OrderedMembers.merge {ms : Named Setting} {later : List (String × Setting)}
    (h : OrderedMembers ms) (hlater : ∀ m ∈ later, m.2.Ordered) :
  OrderedMembers (mergeMembers ms later)
  := by
  cases later with
  | nil => apply h
  | cons m later =>
    obtain ⟨k, v⟩ := m
    rw [List.forall_mem_cons] at hlater
    rw [mergeMembers]
    apply OrderedMembers.merge _ hlater.2
    apply h.insert
    cases hget : Named.get? k ms with
    | none => apply hlater.1
    | some earlier => apply (h.get? hget).merge hlater.1

end

/-- A later value over the earlier one, if there is one. -/
def onto (later : Setting) (earlier : Option Setting) : Setting :=
  earlier.elim later (·.merge later)

/-- The value under a name in merged members is the later one over the earlier one. -/
theorem get?_mergeMembers {ms later : Named Setting} (h : later.Sorted) (name : String) :
  Named.get? name (mergeMembers ms later)
    = ((Named.get? name later).map (onto · (Named.get? name ms))).or (Named.get? name ms)
  := by
  induction later generalizing ms with
  | nil => rfl
  | cons m later ih =>
    obtain ⟨k, v⟩ := m
    have hvalue : mergeMembers ms ((k, v) :: later)
        = mergeMembers (Named.insert k (v.onto (Named.get? k ms)) ms) later := by
      rw [mergeMembers]
      cases Named.get? k ms <;> rfl
    rw [hvalue, ih (List.pairwise_cons.mp h).2]
    by_cases hname : name = k
    · subst hname
      rw [h.get?_tail, Named.get?_insert_self, Named.get?_cons_self]
      rfl
    · rw [Named.get?_insert_of_ne _ ms hname, Named.get?_cons_of_ne v later hname]

/-- A name that has a value keeps having one in merged members. -/
theorem isSome_get?_mergeMembers {ms later : Named Setting} (h : later.Sorted) {name : String}
    (hname : (Named.get? name ms).isSome) :
  (Named.get? name (mergeMembers ms later)).isSome
  := by
  rw [get?_mergeMembers h, Option.isSome_or, hname, Bool.or_true]

end Setting

/-! ### The environment -/

namespace Environment

open Setting

/-- The value of a name is sorted if values are. -/
theorem finds_pair {value : Scan Setting} (h : Scan.Finds Ordered value) :
  Scan.Finds (fun m => m.2.Ordered) (pair value)
  := by
  rintro cs ⟨k, v⟩ rest hfound
  simp only [pair, bind, Option.bind_eq_some_iff, pure, Option.some.injEq] at hfound
  obtain ⟨_, -, _, -, ⟨v', _⟩, hvalue, heq⟩ := hfound
  cases heq
  apply h _ _ _ hvalue

/-- A value is sorted if those inside it are. -/
theorem finds_valueWith {inner : Option (Scan Setting)}
    (h : ∀ value ∈ inner, Scan.Finds Ordered value) :
  Scan.Finds Ordered (valueWith inner)
  := by
  intro cs v rest hfound
  rw [valueWith.eq_def] at hfound
  split at hfound
  · cases hfound
    apply Ordered.scalar
  · cases hfound
    apply Ordered.scalar
  · split at hfound
    · cases hfound
    · next value =>
      obtain ⟨⟨vs, after⟩, hitems, heq⟩ := Option.map_eq_some_iff.mp hfound
      cases heq
      apply Ordered.list
      apply (h value rfl).items _ _ _ _ _ _ hitems
  · split at hfound
    · cases hfound
    · next value =>
      obtain ⟨⟨ms, after⟩, hitems, heq⟩ := Option.map_eq_some_iff.mp hfound
      cases heq
      have hms := (finds_pair (h value rfl)).items _ _ _ _ _ _ hitems
      apply OrderedMembers.table ((Named.Tidy.nil Ordered).insertAll hms)
  · obtain ⟨_, -, heq⟩ := Option.map_eq_some_iff.mp hfound
    cases heq
    apply Ordered.scalar
  · obtain ⟨_, -, heq⟩ := Option.map_eq_some_iff.mp hfound
    cases heq
    apply Ordered.scalar
  · cases hfound
    apply Ordered.scalar

/-- Every value is sorted. -/
theorem finds_value (room : Nat) :
  Scan.Finds Ordered (value room)
  := by
  induction room with
  | zero =>
    intro cs v rest h
    obtain ⟨_, hfound, heq⟩ := Option.map_eq_some_iff.mp h
    cases heq
    apply finds_valueWith _ _ _ _ hfound
    simp
  | succ room ih =>
    intro cs v rest h
    obtain ⟨_, hfound, heq⟩ := Option.map_eq_some_iff.mp h
    cases heq
    apply finds_valueWith _ _ _ _ hfound
    simpa using ih

/-- The value of a variable is sorted. -/
theorem ordered_valueOf (text : String) :
  (valueOf text).Ordered
  := by
  rw [valueOf]
  split
  · next v h => apply finds_value _ _ _ _ h
  · apply Ordered.scalar

/-- A sorted value under a path makes sorted tables. -/
theorem orderedMembers_nested {v : Setting} (h : v.Ordered) (path : List String) :
  OrderedMembers (nested v path)
  := by
  induction path with
  | nil => apply Named.Tidy.nil
  | cons k path ih =>
    cases path with
    | nil => apply Named.Tidy.single h
    | cons l path => apply Named.Tidy.single (ih.table _)

end Environment

/-- All tables of the environment are sorted by name. -/
theorem Setting.orderedMembers_environmentLayer (environment : List (String × String)) :
  OrderedMembers (environmentLayer environment)
  := by
  rw [environmentLayer]
  apply List.foldlRecOn (motive := OrderedMembers) _ _ (Named.Tidy.nil Ordered)
  rintro layer hlayer ⟨k, text⟩ -
  dsimp only
  split
  · apply hlayer.merge (Environment.orderedMembers_nested (Environment.ordered_valueOf _) _).all
  · apply hlayer

/-! ### Values at paths -/

namespace Setting

/-- What a setting holds under a name, if it is a table. -/
def member? (name : String) : Setting → Option Setting
  | .table _ members => Named.get? name members
  | _ => none

/-- What a layer gives at a path of two names. -/
def valueAt (top name : String) (layer : Named Setting) : Option Setting :=
  (Named.get? top layer).bind (member? name)

/-- The layer gives a name no value but a table. -/
def GivesTable (layer : Named Setting) (top : String) : Prop :=
  ∀ v ∈ Named.get? top layer, ∃ origin members, v = .table origin members

/-- What merged layers give at a path is what the later one gives over what the earlier one gives,
if neither gives anything but a table under the first name. -/
theorem valueAt_mergeMembers {earlier later : Named Setting} (h : OrderedMembers later)
    {top : String} (hearlier : GivesTable earlier top) (hlater : GivesTable later top)
    (name : String) :
  valueAt top name (mergeMembers earlier later)
    = ((valueAt top name later).map (onto · (valueAt top name earlier))).or
      (valueAt top name earlier)
  := by
  rw [valueAt, valueAt, valueAt, get?_mergeMembers h.sorted]
  cases hv : Named.get? top later with
  | none => rfl
  | some v =>
    obtain ⟨origin, members, rfl⟩ := hlater v hv
    cases he : Named.get? top earlier with
    | none =>
      change Named.get? name members = ((Named.get? name members).map fun v => v).or none
      simp
    | some e =>
      obtain ⟨_, ms, rfl⟩ := hearlier e he
      apply get?_mergeMembers (h.get? hv).members.sorted

/-- Merged layers give a name no value but a table if neither of them does. -/
theorem GivesTable.merge {earlier later : Named Setting} (hsorted : later.Sorted) {top : String}
    (h : GivesTable earlier top) (hlater : GivesTable later top) :
  GivesTable (mergeMembers earlier later) top
  := by
  intro v hv
  rw [get?_mergeMembers hsorted] at hv
  cases hl : Named.get? top later with
  | none =>
    rw [hl] at hv
    apply h v hv
  | some l =>
    rw [hl] at hv
    cases hv
    obtain ⟨origin, members, rfl⟩ := hlater l hl
    cases he : Named.get? top earlier with
    | none => exact ⟨origin, members, rfl⟩
    | some e =>
      obtain ⟨_, ms, rfl⟩ := h e he
      exact ⟨origin, mergeMembers ms members, rfl⟩

end Setting

end TextPipeline
