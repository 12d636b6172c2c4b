import Mathlib.Data.List.Basic
import TextPipeline.Proofs.SortedValues
import TextPipeline.Script.Compiler

/-!
# Changes to compilers

The template of a kind is the one that the last change about this kind has set, and the template of
the standard compiler if there is no such change.  A mapping sets the template that the listed kind
has of its own, whatever other templates are given for that kind, and a mapping onto anything but a
listed operation is no change at all.  So nothing counts but the order in which the changes about
one kind come.
-/

namespace TextPipeline

/-! ### Templates of listed kinds -/

/-- No two listed kinds have the same identifier. -/
theorem OperationKind.identifier_injective :
  Function.Injective identifier
  := by
  intro kind kind' h
  have hfound := kind.ofIdentifier?_identifier
  rw [h, kind'.ofIdentifier?_identifier, Option.some.injEq] at hfound
  rw [hfound]

namespace Templates

variable {name : String} {t : Template}

/-- The template under an identifier is that of the listed kind with this identifier. -/
theorem ofIdentifier?_eq_some_iff :
  ofIdentifier? name = some t
    ↔ ∃ builtin : OperationKind, builtin.identifier = name ∧ builtin.template? = some t
  := by
  rw [ofIdentifier?, Option.bind_eq_some_iff]
  constructor
  · rintro ⟨builtin, hfound, ht⟩
    use builtin, OperationKind.identifier_of_ofIdentifier? hfound, ht
  · rintro ⟨builtin, rfl, ht⟩
    use builtin, builtin.ofIdentifier?_identifier, ht

/-- There is no template under the name of no listed operation. -/
theorem ofIdentifier?_eq_none
    (h : ∀ builtin : OperationKind, builtin ≠ .textInput → builtin.identifier ≠ name) :
  ofIdentifier? name = none
  := by
  apply Option.eq_none_iff_forall_ne_some.mpr
  intro t ht
  obtain ⟨builtin, hname, hbuiltin⟩ := ofIdentifier?_eq_some_iff.mp ht
  apply h builtin _ hname
  rw [ne_eq, ← builtin.template?_eq_none_iff, hbuiltin]
  simp

/-- The table of the standard compiler holds what the listed kinds have, under their identifiers. -/
theorem get?_builtin (name : String) :
  builtin.get? name = ofIdentifier? name
  := by
  have hnodup : (builtin.map Prod.fst).Nodup := by
    decide
  apply Option.ext
  intro t
  rw [get?, ← Named.get?, Named.get?_eq_some_iff hnodup, ofIdentifier?_eq_some_iff, builtin,
    List.mem_filterMap]
  constructor
  · rintro ⟨kind, -, hkind⟩
    obtain ⟨_, ht, heq⟩ := Option.map_eq_some_iff.mp hkind
    obtain ⟨rfl, rfl⟩ := Prod.mk.inj heq
    use kind, rfl, ht
  · rintro ⟨kind, rfl, ht⟩
    use kind, kind.mem_all
    rw [ht, Option.map_some]

/-- The template of a kind after a kind has been given a template. -/
theorem get?_insert (ts : Templates) (kind name : String) (t : Template) :
  (ts.insert kind t).get? name = (if kind = name then some t else none).or (ts.get? name)
  := by
  rw [insert, get?, List.lookup_cons]
  by_cases h : kind = name
  · simp [h]
  · have hne : (name == kind) = false := beq_eq_false_iff_ne.mpr (Ne.symm h)
    simp [h, hne, get?]

end Templates

/-! ### What a change sets -/

namespace Setup

variable {kind : String} {t : Template}

/-- A change gives a kind a template: the one that is registered for the kind, or the one that the
listed kind has of its own to which the kind is mapped. -/
inductive Gives : Setup → String → Template → Prop where
  | template (kind : String) (t : Template) : Gives (.template kind t) kind t
  | mapping (kind : String) {builtin : OperationKind} {t : Template}
      (h : builtin.template? = some t) : Gives (.mapping kind builtin.identifier) kind t

/-- The template that a change gives a kind, if it gives one. -/
def given? (kind : String) : Setup → Option Template
  | .mapping k builtin => if k = kind then Templates.ofIdentifier? builtin else none
  | .template k t => if k = kind then some t else none
  | .sampleText _ => none

/-- The sample text that a change gives, if it gives one. -/
def text? : Setup → Option String
  | .sampleText text => some text
  | _ => none

/-- The kind that a change is about.  A sample text is about no kind. -/
def kind? : Setup → Option String
  | .mapping kind _ => some kind
  | .template kind _ => some kind
  | .sampleText _ => none

theorem given?_eq_some_iff {call : Setup} :
  call.given? kind = some t ↔ call.Gives kind t
  := by
  constructor
  · intro h
    cases call with
    | mapping k builtin =>
      obtain ⟨rfl, hbuiltin⟩ := Option.ite_none_right_eq_some.mp h
      obtain ⟨_, rfl, ht⟩ := Templates.ofIdentifier?_eq_some_iff.mp hbuiltin
      apply Gives.mapping _ ht
    | template k t =>
      obtain ⟨rfl, ⟨⟩⟩ := Option.ite_none_right_eq_some.mp h
      apply Gives.template
    | sampleText text => cases h
  · rintro (_ | ⟨_, ht⟩)
    · simp [given?]
    · simp [given?, Templates.ofIdentifier?_eq_some_iff.mpr ⟨_, rfl, ht⟩]

theorem given?_eq_none_iff {call : Setup} :
  call.given? kind = none ↔ ∀ t, ¬ call.Gives kind t
  := by
  rw [Option.eq_none_iff_forall_ne_some]
  apply forall_congr'
  intro t
  rw [ne_eq, given?_eq_some_iff]

/-- A change gives no template to other kinds than the one that it is about. -/
theorem given?_eq_none {call : Setup} (h : call.kind? ≠ some kind) :
  call.given? kind = none
  := by
  cases call <;> simp_all [kind?, given?]

end Setup

namespace Compiler

/-! ### What a compiler makes of its changes -/

/-- After a change a kind has the template that the change gives it, or the one it had. -/
theorem template?_setUp (c : Compiler) (call : Setup) (kind : String) :
  (c.setUp call).template? kind = (call.given? kind).or (c.template? kind)
  := by
  cases call with
  | mapping k builtin =>
    rw [setUp, Setup.given?]
    cases hbuiltin : Templates.ofIdentifier? builtin with
    | none => simp
    | some t => apply Templates.get?_insert
  | template k t => apply Templates.get?_insert
  | sampleText text => rfl

/-- After some changes a kind has the template that the last one of them gives it that gives it any,
or the one it had. -/
theorem template?_foldl_setUp (c : Compiler) (setups : List Setup) (kind : String) :
  (setups.foldl setUp c).template? kind
    = (setups.reverse.findSome? (·.given? kind)).or (c.template? kind)
  := by
  induction setups generalizing c with
  | nil => rfl
  | cons call setups ih =>
    rw [List.foldl_cons, ih, template?_setUp, List.reverse_cons, List.findSome?_append,
      Option.or_assoc, List.findSome?_singleton]

/-- A change gives the sample text anew, or leaves the one that was there. -/
theorem sampleText_setUp (c : Compiler) (call : Setup) :
  (c.setUp call).sampleText = call.text?.getD c.sampleText
  := by
  cases call with
  | mapping k builtin =>
    rw [setUp]
    cases Templates.ofIdentifier? builtin <;> rfl
  | template k t => rfl
  | sampleText text => rfl

/-- After some changes the sample text is the last one that is given, or the one that was there. -/
theorem sampleText_foldl_setUp (c : Compiler) (setups : List Setup) :
  (setups.foldl setUp c).sampleText = (setups.reverse.findSome? (·.text?)).getD c.sampleText
  := by
  induction setups generalizing c with
  | nil => rfl
  | cons call setups ih =>
    rw [List.foldl_cons, ih, sampleText_setUp, List.reverse_cons, List.findSome?_append,
      List.findSome?_singleton, Option.getD_or]

/-- The template of a kind is the one that the last change has given it that has given it any, or
that of the listed kind. -/
theorem template?_ofSetups (setups : List Setup) (kind : String) :
  (ofSetups setups).template? kind
    = (setups.reverse.findSome? (·.given? kind)).or (Templates.ofIdentifier? kind)
  := by
  rw [ofSetups, template?_foldl_setUp, template?, standard, Templates.get?_builtin]

/-- The template of a kind comes from the last change that gives it one, or else from the listed
kind of this name. -/
theorem template?_ofSetups_eq_some_iff {setups : List Setup} {kind : String} {t : Template} :
  (ofSetups setups).template? kind = some t
    ↔ (∃ front call back, setups = front ++ call :: back ∧ call.Gives kind t ∧
        ∀ later ∈ back, ∀ t', ¬ later.Gives kind t') ∨
      (∀ call ∈ setups, ∀ t', ¬ call.Gives kind t') ∧
        ∃ builtin : OperationKind, builtin.identifier = kind ∧ builtin.template? = some t
  := by
  rw [template?_ofSetups, Option.or_eq_some_iff, List.findSome?_eq_some_iff,
    List.findSome?_eq_none_iff, Templates.ofIdentifier?_eq_some_iff]
  simp only [Setup.given?_eq_none_iff, Setup.given?_eq_some_iff, List.mem_reverse]
  apply or_congr_left
  constructor
  · rintro ⟨back, call, front, hsetups, hcall, hback⟩
    refine ⟨front.reverse, call, back.reverse, ?_, hcall, ?_⟩
    · rw [← List.reverse_reverse setups, hsetups]
      simp
    · simpa using hback
  · rintro ⟨front, call, back, rfl, hcall, hback⟩
    refine ⟨back.reverse, call, front.reverse, ?_, hcall, ?_⟩
    · simp
    · simpa using hback

/-! ### Changes that do not count -/

/-- Compilers with the same templates and the same sample text give the same scripts. -/
theorem compile_congr {c c' : Compiler} (htemplate : ∀ kind, c'.template? kind = c.template? kind)
    (hsample : c'.sampleText = c.sampleText) (g : Graph) :
  c'.compile g = c.compile g
  := by
  have htemplates : c'.template? = c.template? := funext htemplate
  simp only [compile, script, sample, htemplates, hsample]

/-- A mapping onto the name of no listed operation changes nothing. -/
theorem setUp_mapping (c : Compiler) (kind : String) {name : String}
    (h : ∀ builtin : OperationKind, builtin ≠ .textInput → builtin.identifier ≠ name) :
  c.setUp (.mapping kind name) = c
  := by
  rw [setUp, Templates.ofIdentifier?_eq_none h]

/-- What the last member of a list gives that gives anything is given by the same member when some
are left out that give nothing. -/
theorem findSome?_reverse_filter {α β : Type} {f : α → Option β} {p : α → Bool} (xs : List α)
    (h : ∀ x, p x = false → f x = none) :
  (xs.filter p).reverse.findSome? f = xs.reverse.findSome? f
  := by
  rw [← List.filter_reverse, ← List.head?_filterMap, List.filterMap_filter,
    ← List.head?_filterMap]
  congr 1
  apply List.filterMap_congr
  intro x _
  cases hx : p x with
  | true => rfl
  | false => simp [h x hx]

/-- Compilers give the same scripts when the changes about each kind come in the same order, and so
do those of the sample text. -/
theorem compile_ofSetups_congr {setups setups' : List Setup}
    (h : ∀ about, setups'.filter (·.kind? = about) = setups.filter (·.kind? = about))
    (g : Graph) :
  (ofSetups setups').compile g = (ofSetups setups).compile g
  := by
  apply compile_congr
  · intro kind
    have hkind : ∀ call : Setup, decide (call.kind? = some kind) = false →
        call.given? kind = none := by
      intro call hcall
      apply Setup.given?_eq_none (of_decide_eq_false hcall)
    rw [template?_ofSetups, template?_ofSetups, ← findSome?_reverse_filter setups' hkind,
      ← findSome?_reverse_filter setups hkind, h]
  · have htext : ∀ call : Setup, decide (call.kind? = none) = false → call.text? = none := by
      rintro (_ | _ | text) hcall
      · rfl
      · rfl
      · cases of_decide_eq_false hcall rfl
    rw [ofSetups, ofSetups, sampleText_foldl_setUp, sampleText_foldl_setUp,
      ← findSome?_reverse_filter setups' htext, ← findSome?_reverse_filter setups htext, h]

/-- For every list of changes to the standard compiler, the template of a kind is the one that the
last change gives that gives the kind any, and without such a change it is the template of the
listed kind of that name, if it has one.  A mapping onto the name of no listed operation, the input
included, counts as little as if it were not there.  What the compiler makes of graphs depends only
on the order of the changes about each kind, and so changes about different kinds that follow each
other can be exchanged. -/
theorem ofSetups_resolved (setups : List Setup) :
  (∀ kind t, (ofSetups setups).template? kind = some t
    ↔ (∃ front call back, setups = front ++ call :: back ∧ call.Gives kind t ∧
        ∀ later ∈ back, ∀ t', ¬ later.Gives kind t') ∨
      (∀ call ∈ setups, ∀ t', ¬ call.Gives kind t') ∧
        ∃ builtin : OperationKind, builtin.identifier = kind ∧ builtin.template? = some t) ∧
  (∀ builtin : OperationKind, (∃ t, builtin.template? = some t) ↔ builtin ≠ .textInput) ∧
  (∀ front kind name back, setups = front ++ .mapping kind name :: back →
    (∀ builtin : OperationKind, builtin ≠ .textInput → builtin.identifier ≠ name) →
      ofSetups (front ++ back) = ofSetups setups) ∧
  (∀ setups', (∀ about, setups'.filter (·.kind? = about) = setups.filter (·.kind? = about)) →
    ∀ g, (ofSetups setups').compile g = (ofSetups setups).compile g) ∧
  (∀ front a b back, setups = front ++ a :: b :: back → a.kind? ≠ b.kind? →
    ∀ g, (ofSetups (front ++ b :: a :: back)).compile g = (ofSetups setups).compile g)
  := by
  refine ⟨?_, ?_, ?_, ?_, ?_⟩
  · intro kind t
    apply template?_ofSetups_eq_some_iff
  · intro builtin
    rw [← Option.isSome_iff_exists, ← Option.ne_none_iff_isSome, ne_eq,
      builtin.template?_eq_none_iff]
  · rintro front kind name back rfl hname
    rw [ofSetups, ofSetups, List.foldl_append, List.foldl_append, List.foldl_cons,
      setUp_mapping _ kind hname]
  · intro setups' h g
    apply compile_ofSetups_congr h
  · rintro front a b back rfl hab g
    apply compile_ofSetups_congr
    intro about
    simp only [List.filter_append, List.filter_cons, decide_eq_true_eq]
    by_cases ha : a.kind? = about
    · have hb : b.kind? ≠ about := fun hb => hab (ha.trans hb.symm)
      simp [ha, hb]
    · simp [ha]

/-- A template of its own for a listed kind, a mapping onto that kind, and mappings of the same kind
that are none. -/
def remapped : List Setup :=
  [.template "tokenization" ⟨"def t(doc): pass", "t(doc)", "print(1)"⟩,
    .mapping "mine" "tokenization", .mapping "mine" "textInput", .mapping "mine" "translation"]

/-- A mapped kind has the template that the listed kind has of its own, and keeps it when what
follows is no mapping onto a listed operation. -/
theorem template?_remapped :
  (ofSetups remapped).template? "mine" = OperationKind.tokenization.template? ∧
    (ofSetups remapped).template? "tokenization"
      = some ⟨"def t(doc): pass", "t(doc)", "print(1)"⟩ ∧
    ofSetups (remapped.take 2 ++ remapped.drop 3) = ofSetups remapped
  := by
  obtain ⟨htemplate, -, hidle, -, -⟩ := ofSetups_resolved remapped
  obtain ⟨t, ht⟩ : ∃ t, OperationKind.tokenization.template? = some t := ⟨_, rfl⟩
  refine ⟨?_, ?_, ?_⟩
  · rw [ht]
    apply (htemplate "mine" t).mpr (.inl ⟨remapped.take 1, _, _, rfl, .mapping "mine" ht, ?_⟩)
    simp only [← Setup.given?_eq_none_iff]
    decide
  · apply (htemplate "tokenization" _).mpr (.inl ⟨[], _, _, rfl, .template _ _, ?_⟩)
    simp only [← Setup.given?_eq_none_iff]
    decide
  · apply hidle (remapped.take 2) "mine" "textInput" (remapped.drop 3) rfl
    intro builtin hbuiltin hname
    apply hbuiltin (OperationKind.identifier_injective hname)

end Compiler

end TextPipeline
