import Mathlib.Data.List.Basic
import TextPipeline.Proofs.SortedValues
import TextPipeline.Toml.Document

/-!
# Tables of TOML texts

Every table of a TOML text, at whatever depth, holds each name once and is sorted by name: a line
that gives a name again is refused, and what is added to a table is put in its place.  Once the text
has been read, the value under a name does therefore not depend on how the table is looked through.
-/

namespace TextPipeline

/-- The values are sorted by name, and each of them has a property. -/
structure Named.Tidy {α : Type} (p : α → Prop) (values : Named α) : Prop where
  sorted : values.Sorted
  all : ∀ v ∈ values, p v.2

namespace Named.Tidy

variable {α : Type} {p : α → Prop} {values : Named α}

theorem nil (p : α → Prop) :
  Tidy p []
  := by
  constructor
  · apply List.Pairwise.nil
  · intro v hv
    apply absurd hv List.not_mem_nil

theorem single {value : α} (h : p value) (name : String) :
  Tidy p [(name, value)]
  := by
  constructor
  · apply List.pairwise_singleton
  · intro v hv
    rw [List.mem_singleton.mp hv]
    apply h

/-- One more value is put in its place. -/
theorem insert (h : Tidy p values) {value : α} (hvalue : p value) (name : String) :
  Tidy p (Named.insert name value values)
  := by
  constructor
  · apply h.sorted.insert
  · intro v hv
    rcases mem_of_mem_insert hv with rfl | hv
    · apply hvalue
    · apply h.all v hv

/-- Further values are put in their places one after the other. -/
theorem insertAll (h : Tidy p values) {further : Named α} (hfurther : ∀ v ∈ further, p v.2) :
  Tidy p (Named.insertAll values further)
  := by
  apply List.foldlRecOn (motive := Tidy p) _ _ h
  intro values hvalues v hv
  apply hvalues.insert (hfurther v hv)

/-- What is found under a name has the property. -/
theorem get? (h : Tidy p values) {name : String} {value : α}
    (hget : Named.get? name values = some value) :
  p value
  := h.all _ ((get?_eq_some_iff h.sorted.nodup).mp hget)

end Named.Tidy

/-- What a scan finds has a property, wherever it finds it. -/
def Scan.Finds {α : Type} (p : α → Prop) (scan : Scan α) : Prop :=
  ∀ cs a rest, scan cs = some (a, rest) → p a

/-- Items that are found one after the other all have the property that each of them has. -/
theorem Scan.Finds.items {α : Type} {p : α → Prop} {item : Scan α} (h : Finds p item)
    (space : List Char → List Char) (close : Char) (lastComma : Bool) :
  Finds (fun as => ∀ a ∈ as, p a) (Scan.items item space close lastComma)
  := by
  have hupTo : ∀ n mayClose,
      Finds (fun as => ∀ a ∈ as, p a) (itemsUpTo item space close lastComma n mayClose) := by
    intro n
    induction n with
    | zero =>
      intro mayClose cs as rest hfound
      cases hfound
    | succ n ih =>
      intro mayClose cs as rest hfound
      rw [itemsUpTo] at hfound
      split at hfound
      · cases hfound
        simp
      · split at hfound
        · cases hfound
        · next a after hitem =>
          have ha : p a := h _ _ _ hitem
          split at hfound
          · cases hfound
          · split at hfound
            · cases hfound
              simpa using ha
            · split at hfound
              · obtain ⟨⟨as', after'⟩, hmore, heq⟩ := Option.map_eq_some_iff.mp hfound
                cases heq
                rw [List.forall_mem_cons]
                use ha, ih _ _ _ _ hmore
              · cases hfound
  intro cs as rest hfound
  apply hupTo _ _ cs as rest hfound

namespace Toml

/-- All tables in a value are sorted by name. -/
inductive Ordered : Toml → Prop where
  | text (value : String) : Ordered (.text value)
  | integer (value : Int) : Ordered (.integer value)
  | float (value : Extended) : Ordered (.float value)
  | bool (value : Bool) : Ordered (.bool value)
  | moment (text : String) : Ordered (.moment text)
  | array {elements : List Toml} (h : ∀ v ∈ elements, Ordered v) : Ordered (.array elements)
  | table {form : TableForm} {members : Named Toml} (hsorted : members.Sorted)
      (h : ∀ m ∈ members, Ordered m.2) : Ordered (.table form members)
  | tables {elements : List Toml} (h : ∀ v ∈ elements, Ordered v) : Ordered (.tables elements)

/-- The members of a table, with all tables in them sorted by name. -/
abbrev OrderedMembers : Named Toml → Prop :=
  Named.Tidy Ordered

theorem OrderedMembers.table {members : Named Toml} (h : OrderedMembers members)
    (form : TableForm) :
  Ordered (.table form members)
  := .table h.sorted h.all

theorem Ordered.members {form : TableForm} {members : Named Toml}
    (h : Ordered (.table form members)) :
  OrderedMembers members
  := by
  cases h with
  | table hsorted hall => exact ⟨hsorted, hall⟩

theorem Ordered.elements {elements : List Toml} (h : Ordered (.tables elements)) :
  ∀ v ∈ elements, Ordered v
  := by
  cases h with
  | tables hall => apply hall

/-! ### Edits of tables -/

/-- An edit of tables keeps them sorted. -/
def KeepsOrder (edit : TableForm → Named Toml → Option (Named Toml)) : Prop :=
  ∀ form members members', OrderedMembers members → edit form members = some members' →
    OrderedMembers members'

/-- An edit that keeps tables sorted does so at the end of a path. -/
theorem KeepsOrder.within {edit : TableForm → Named Toml → Option (Named Toml)}
    (h : KeepsOrder edit) (byDots : Bool) (path : List String) :
  KeepsOrder (Toml.within byDots edit path)
  := by
  induction path with
  | nil => apply h
  | cons k path ih =>
    intro form members members' hmembers hedit
    rw [Toml.within] at hedit
    split at hedit
    · obtain ⟨inner, hinner, rfl⟩ := Option.map_eq_some_iff.mp hedit
      apply hmembers.insert
      apply (ih _ _ _ (.nil Ordered) hinner).table
    · next innerForm inner hget =>
      rw [Option.ite_none_right_eq_some] at hedit
      obtain ⟨inner', hinner', rfl⟩ := Option.map_eq_some_iff.mp hedit.2
      apply hmembers.insert
      apply (ih _ _ _ (hmembers.get? hget).members hinner').table
    · next elements hget =>
      split at hedit
      · next innerForm inner hlast =>
        obtain ⟨inner', hinner', rfl⟩ := Option.map_eq_some_iff.mp hedit
        have helements := (hmembers.get? hget).elements
        have hinner : OrderedMembers inner :=
          (helements _ (List.mem_of_getLast? hlast)).members
        apply hmembers.insert
        apply Ordered.tables
        rw [List.forall_mem_append, List.forall_mem_singleton]
        constructor
        · intro v hv
          apply helements v (List.dropLast_subset _ hv)
        · apply (ih _ _ _ hinner hinner').table
      · cases hedit
    · cases hedit

/-- A key that is given a value keeps the tables on its way sorted. -/
theorem keepsOrder_assign (key : List String) {value : Toml} (h : value.Ordered) :
  KeepsOrder (assign key value)
  := by
  intro form members members' hmembers hassign
  rw [assign] at hassign
  cases hlast : key.getLast? with
  | none =>
    rw [hlast] at hassign
    cases hassign
  | some last =>
    rw [hlast] at hassign
    apply KeepsOrder.within _ _ _ _ _ _ hmembers hassign
    intro form ms ms' hms hadd
    beta_reduce at hadd
    split at hadd
    · cases hadd
    · split at hadd
      · cases hadd
      · cases hadd
        apply hms.insert h

/-- A header that opens a table leaves the table sorted that it is in. -/
theorem keepsOrder_openTable (name : String) :
  KeepsOrder (openTable name)
  := by
  intro form members members' hmembers hopen
  rw [openTable] at hopen
  split at hopen
  · cases hopen
    apply hmembers.insert (OrderedMembers.table (.nil Ordered) _)
  · next inner hget =>
    cases hopen
    apply hmembers.insert ((hmembers.get? hget).members.table _)
  · cases hopen

/-- A header that opens one more table of an array leaves the table sorted that the array is in. -/
theorem keepsOrder_openElement (name : String) :
  KeepsOrder (openElement name)
  := by
  intro form members members' hmembers hopen
  have hnew : Ordered (.table .header []) := OrderedMembers.table (.nil Ordered) _
  rw [openElement] at hopen
  split at hopen
  · cases hopen
    apply hmembers.insert
    apply Ordered.tables
    simpa using hnew
  · next elements hget =>
    cases hopen
    apply hmembers.insert
    apply Ordered.tables
    rw [List.forall_mem_append, List.forall_mem_singleton]
    use (hmembers.get? hget).elements
  · cases hopen

/-- An edit of the table that a header names leaves the whole table sorted. -/
theorem orderedMembers_of_underHeader
    {edit : String → TableForm → Named Toml → Option (Named Toml)} (h : ∀ name, KeepsOrder (edit name))
    {path : List String} {members members' : Named Toml} (hmembers : OrderedMembers members)
    (hedit : underHeader edit path members = some members') :
  OrderedMembers members'
  := by
  rw [underHeader] at hedit
  cases hlast : path.getLast? with
  | none =>
    rw [hlast] at hedit
    cases hedit
  | some last =>
    rw [hlast] at hedit
    apply (h last).within _ _ _ _ _ hmembers hedit

/-! ### Values -/

/-- What the steps through a list keep, all steps together keep. -/
theorem foldlM_induction {α σ : Type} {p : σ → Prop} {q : α → Prop} {f : σ → α → Option σ}
    (hstep : ∀ s a s', p s → q a → f s a = some s' → p s') {as : List α} (has : ∀ a ∈ as, q a)
    {s s' : σ} (hs : p s) (hfold : as.foldlM f s = some s') :
  p s'
  := by
  induction as generalizing s with
  | nil =>
    cases hfold
    apply hs
  | cons a as ih =>
    rw [List.foldlM_cons] at hfold
    obtain ⟨next, hnext, hfold⟩ := Option.bind_eq_some_iff.mp hfold
    rw [List.forall_mem_cons] at has
    apply ih has.2 (hstep _ _ _ hs has.1 hnext) hfold

/-- Keys and values between braces make a sorted table. -/
theorem ordered_inlineTable {pairs : List (List String × Toml)} (h : ∀ m ∈ pairs, m.2.Ordered)
    {v : Toml} (hv : inlineTable pairs = some v) :
  v.Ordered
  := by
  rw [inlineTable] at hv
  obtain ⟨members, hmembers, rfl⟩ := Option.map_eq_some_iff.mp hv
  have hordered : OrderedMembers members := by
    apply foldlM_induction _ h (.nil Ordered) hmembers
    rintro ms ⟨key, v⟩ ms' hms hv hassign
    apply keepsOrder_assign key hv _ _ _ hms hassign
  apply hordered.table

/-- A value that holds no other values is sorted. -/
theorem finds_scalar :
  Scan.Finds Ordered scalar
  := by
  intro cs v rest h
  rw [scalar.eq_def] at h
  split at h
  · cases h
    apply Ordered.bool
  · cases h
    apply Ordered.bool
  · split at h
    · cases h
      apply Ordered.moment
    · split at h
      · cases h
        apply Ordered.float
      · obtain ⟨_, -, heq⟩ := Option.map_eq_some_iff.mp h
        cases heq
        apply Ordered.integer

/-- The value of a key is sorted if values are. -/
theorem finds_pair {value : Scan Toml} (h : Scan.Finds Ordered value) :
  Scan.Finds (fun m => m.2.Ordered) (pair value)
  := by
  rintro cs ⟨k, v⟩ rest hfound
  simp only [pair, bind, Option.bind_eq_some_iff, pure, Option.some.injEq] at hfound
  obtain ⟨_, -, _, -, ⟨v', _⟩, hvalue, heq⟩ := hfound
  cases heq
  apply h _ _ _ hvalue

/-- A value is sorted if those inside it are. -/
theorem finds_valueWith {inner : Option (Scan Toml)}
    (h : ∀ value ∈ inner, Scan.Finds Ordered value) :
  Scan.Finds Ordered (valueWith inner)
  := by
  intro cs v rest hfound
  rw [valueWith.eq_def] at hfound
  split at hfound
  · split at hfound
    · cases hfound
    · next value =>
      obtain ⟨⟨vs, after⟩, hitems, heq⟩ := Option.map_eq_some_iff.mp hfound
      cases heq
      apply Ordered.array
      apply (h value rfl).items _ _ _ _ _ _ hitems
  · split at hfound
    · cases hfound
    · next value =>
      split at hfound
      · cases hfound
      · next pairs after hitems =>
        obtain ⟨t, ht, heq⟩ := Option.map_eq_some_iff.mp hfound
        cases heq
        apply ordered_inlineTable _ ht
        apply (finds_pair (h value rfl)).items _ _ _ _ _ _ hitems
  · split at hfound
    · obtain ⟨_, -, heq⟩ := Option.map_eq_some_iff.mp hfound
      cases heq
      apply Ordered.text
    · apply finds_scalar _ _ _ hfound
  · cases hfound

/-- Every value is sorted. -/
theorem finds_value (room : Nat) :
  Scan.Finds Ordered (value room)
  := by
  induction room with
  | zero =>
    apply finds_valueWith
    simp
  | succ room ih =>
    apply finds_valueWith
    simpa using ih

/-! ### Lines -/

/-- What a line gives is sorted. -/
def Line.Ordered : Line → Prop
  | .assign _ value => value.Ordered
  | _ => True

theorem finds_line :
  Scan.Finds Line.Ordered line
  := by
  intro cs l rest h
  rw [line.eq_def] at h
  split at h
  · simp only [bind, Option.bind_eq_some_iff, pure, Option.some.injEq] at h
    obtain ⟨_, -, _, -, _, -, heq⟩ := h
    cases heq
    trivial
  · simp only [bind, Option.bind_eq_some_iff, pure, Option.some.injEq] at h
    obtain ⟨_, -, _, -, _, -, heq⟩ := h
    cases heq
    trivial
  · split at h
    · cases h
      trivial
    · simp only [bind, Option.bind_eq_some_iff, pure, Option.some.injEq] at h
      obtain ⟨⟨⟨k, v⟩, _⟩, hpair, _, -, heq⟩ := h
      cases heq
      apply finds_pair (finds_value _) _ _ _ hpair

/-- What the lines of a text give is sorted. -/
theorem ordered_of_linesUpTo {n : Nat} {cs : List Char} {ls : List Line}
    (h : linesUpTo n cs = some ls) :
  ∀ l ∈ ls, l.Ordered
  := by
  induction n generalizing cs ls with
  | zero => cases h
  | succ n ih =>
    rw [linesUpTo] at h
    split at h
    · cases h
      simp
    · split at h
      · cases h
      · next l rest hline =>
        obtain ⟨more, hmore, rfl⟩ := Option.map_eq_some_iff.mp h
        rw [List.forall_mem_cons]
        use finds_line _ _ _ hline, ih hmore

/-- A line keeps the whole table sorted. -/
theorem orderedMembers_of_addLine {state state' : Named Toml × List String} {l : Line}
    (hstate : OrderedMembers state.1) (hl : l.Ordered) (h : addLine state l = some state') :
  OrderedMembers state'.1
  := by
  obtain ⟨members, current⟩ := state
  cases l with
  | empty =>
    cases h
    apply hstate
  | table path =>
    obtain ⟨ms, hms, rfl⟩ := Option.map_eq_some_iff.mp h
    apply orderedMembers_of_underHeader keepsOrder_openTable hstate hms
  | element path =>
    obtain ⟨ms, hms, rfl⟩ := Option.map_eq_some_iff.mp h
    apply orderedMembers_of_underHeader keepsOrder_openElement hstate hms
  | assign key v =>
    obtain ⟨ms, hms, rfl⟩ := Option.map_eq_some_iff.mp h
    apply (keepsOrder_assign key hl).within _ _ _ _ _ hstate hms

/-- All tables of a text are sorted by name. -/
theorem orderedMembers_of_parse {text : String} {members : Named Toml}
    (h : parse text = some members) :
  OrderedMembers members
  := by
  simp only [parse, bind, Option.bind_eq_some_iff, pure, Option.some.injEq] at h
  obtain ⟨ls, hls, ⟨ms, current⟩, hfold, rfl⟩ := h
  have hlines : ∀ l ∈ ls, l.Ordered := ordered_of_linesUpTo hls
  apply foldlM_induction (p := fun state => OrderedMembers state.1) _ hlines (.nil Ordered) hfold
  intro state l state' hstate hl hline
  apply orderedMembers_of_addLine hstate hl hline

end Toml

end TextPipeline
