import Mathlib.Logic.Relation
import TextPipeline.Pipeline.Connection

/-!
# Paths along edges

A list of edges links the source of each of its edges to the target.  Links chain up to paths, and
the list is acyclic when no path of at least one edge leads back to where it began.  One more edge
keeps a list acyclic exactly when no path led from its target to its source.
-/

namespace TextPipeline

open Relation

/-- Some edge goes from `a` to `b`. -/
def Linked (edges : List Edge) (a b : String) : Prop :=
  ∃ e ∈ edges, e.source = a ∧ e.target = b

/-- A path, which may have no edge at all, leads from one node to the other. -/
abbrev Reaches (edges : List Edge) : String → String → Prop :=
  ReflTransGen (Linked edges)

/-- A path of at least one edge leads from one node to the other. -/
abbrev Leads (edges : List Edge) : String → String → Prop :=
  TransGen (Linked edges)

/-- No path of at least one edge leads back to where it began. -/
def Acyclic (edges : List Edge) : Prop :=
  ∀ a, ¬ Leads edges a a

/-- The successors of a node are the nodes it is linked to. -/
theorem mem_successors {edges : List Edge} {a b : String} :
  b ∈ successors edges a ↔ Linked edges a b
  := by
  simp [successors, Linked, and_assoc]

/-- The test for an edge finds out whether two nodes are linked. -/
theorem hasEdge_iff {edges : List Edge} {a b : String} :
  hasEdge edges a b = true ↔ Linked edges a b
  := by
  simp [hasEdge, Linked]

/-! ### Fewer edges -/

/-- More edges keep the links there were. -/
theorem Linked.mono {edges edges' : List Edge} (h : edges ⊆ edges') {a b : String}
    (hab : Linked edges a b) :
  Linked edges' a b
  := by
  obtain ⟨e, he, hsource, htarget⟩ := hab
  use e, h he, hsource, htarget

/-- More edges keep the paths there were. -/
theorem Leads.mono {edges edges' : List Edge} (h : edges ⊆ edges') {a b : String}
    (hab : Leads edges a b) :
  Leads edges' a b
  := by
  apply TransGen.mono _ _ _ hab
  intro _ _
  apply Linked.mono h

/-- More edges keep the paths there were, those without an edge among them. -/
theorem Reaches.mono {edges edges' : List Edge} (h : edges ⊆ edges') {a b : String}
    (hab : Reaches edges a b) :
  Reaches edges' a b
  := by
  apply ReflTransGen.mono _ _ _ hab
  intro _ _
  apply Linked.mono h

/-- Fewer edges are acyclic if more of them are. -/
theorem Acyclic.mono {edges edges' : List Edge} (h : edges ⊆ edges') (h' : Acyclic edges') :
  Acyclic edges
  := by
  intro a ha
  apply h' a
  apply ha.mono h

/-- Without edges there is no cycle. -/
theorem acyclic_nil :
  Acyclic []
  := by
  intro a ha
  obtain ⟨_, ⟨_, hmem, -⟩, -⟩ := TransGen.head'_iff.mp ha
  simp at hmem

/-! ### One more edge -/

/-- One more edge links its own ends, and adds no other link. -/
theorem linked_append_singleton {edges : List Edge} {e : Edge} {a b : String} :
  Linked (edges ++ [e]) a b ↔ Linked edges a b ∨ e.source = a ∧ e.target = b
  := by
  simp [Linked, or_and_right, exists_or]

/-- A path with one more edge allowed does without it, or its first part leads to the source of
the edge and its last part comes from the target. -/
theorem leads_append_singleton {edges : List Edge} {e : Edge} {a b : String}
    (h : Leads (edges ++ [e]) a b) :
  Leads edges a b ∨ Reaches edges a e.source ∧ Reaches edges e.target b
  := by
  induction h with
  | single hlink =>
    obtain hlink | ⟨rfl, rfl⟩ := linked_append_singleton.mp hlink
    · left
      apply TransGen.single hlink
    · right
      apply And.intro .refl .refl
  | tail _ hlink ih =>
    obtain hlink | ⟨rfl, rfl⟩ := linked_append_singleton.mp hlink
    · obtain ih | ⟨hsource, htarget⟩ := ih
      · left
        apply TransGen.tail ih hlink
      · right
        apply And.intro hsource (ReflTransGen.tail htarget hlink)
    · right
      obtain ih | ⟨hsource, -⟩ := ih
      · apply And.intro ih.to_reflTransGen .refl
      · apply And.intro hsource .refl

/-- With one more edge a node reaches what it reached before, and if it reached the source of the
edge, also what the target reached. -/
theorem reaches_append_singleton {edges : List Edge} {e : Edge} {a b : String} :
  Reaches (edges ++ [e]) a b
    ↔ Reaches edges a b ∨ Reaches edges a e.source ∧ Reaches edges e.target b
  := by
  have hsub : edges ⊆ edges ++ [e] := List.subset_append_left ..
  constructor
  · intro h
    obtain rfl | h := reflTransGen_iff_eq_or_transGen.mp h
    · exact .inl .refl
    · apply (leads_append_singleton h).imp_left TransGen.to_reflTransGen
  · rintro (h | ⟨hsource, htarget⟩)
    · apply h.mono hsub
    · have hlink : Linked (edges ++ [e]) e.source e.target :=
        linked_append_singleton.mpr (.inr ⟨rfl, rfl⟩)
      apply (Reaches.mono hsub hsource).trans
      apply ReflTransGen.head hlink (htarget.mono hsub)

/-- One more edge closes no cycle exactly when no path led from its target to its source. -/
theorem acyclic_append_singleton {edges : List Edge} {e : Edge} :
  Acyclic (edges ++ [e]) ↔ Acyclic edges ∧ ¬ Reaches edges e.target e.source
  := by
  constructor
  · intro h
    constructor
    · apply h.mono
      apply List.subset_append_left
    · intro hback
      apply h e.source
      have hlink : Linked (edges ++ [e]) e.source e.target :=
        linked_append_singleton.mpr (.inr ⟨rfl, rfl⟩)
      apply TransGen.head' hlink
      apply hback.mono
      apply List.subset_append_left
  · rintro ⟨h, hback⟩ a ha
    obtain ha | ⟨hsource, htarget⟩ := leads_append_singleton ha
    · apply h a ha
    · apply hback
      apply htarget.trans hsource

end TextPipeline
