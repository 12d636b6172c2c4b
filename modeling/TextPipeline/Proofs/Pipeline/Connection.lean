import Mathlib
import TextPipeline.Proofs.Pipeline.Loading

/-!
# Which connections are refused

The verdict about a connection is told by the paths along the edges there are.  The edges may be
any list: they may repeat each other, and some of them may form cycles already.  Among acyclic
edges no connection that would close a cycle is let in, and no other one is refused for one.
-/

namespace TextPipeline

open Relation

variable {edges : List Edge} {source target : String}

/-! ### The verdicts one by one -/

/-- A connection is a loop when its ends are the same. -/
theorem checkConnection_eq_selfLoop_iff :
  checkConnection edges source target = some .selfLoop ↔ source = target
  := by
  rw [checkConnection_eq_iff]
  constructor
  · intro hverdict
    cases hverdict with
    | selfLoop h => exact h
  · apply Verdict.selfLoop

/-- A connection is a duplicate when it is no loop and its ends are linked. -/
theorem checkConnection_eq_duplicate_iff :
  checkConnection edges source target = some .duplicate
    ↔ source ≠ target ∧ Linked edges source target
  := by
  rw [checkConnection_eq_iff]
  constructor
  · intro hverdict
    cases hverdict with
    | duplicate hends h => exact ⟨hends, h⟩
  · rintro ⟨hends, h⟩
    exact .duplicate hends h

/-- Between different nodes a connection is said to close a cycle when its target reaches its
source or some cycle. -/
theorem closesCycle_iff_of_ne (h : source ≠ target) :
  closesCycle edges source target = true
    ↔ Reaches edges target source ∨ ∃ a, Reaches edges target a ∧ OnCycle edges a
  := by
  rw [closesCycle_iff, or_iff_right h]

/-- A connection closes a cycle when it is neither a loop nor a duplicate, and its target reaches
its source or some cycle. -/
theorem checkConnection_eq_cycle_iff :
  checkConnection edges source target = some .cycle
    ↔ source ≠ target ∧ ¬ Linked edges source target ∧
        (Reaches edges target source ∨ ∃ a, Reaches edges target a ∧ OnCycle edges a)
  := by
  rw [checkConnection_eq_iff]
  constructor
  · intro hverdict
    cases hverdict with
    | cycle hends hnew h => exact ⟨hends, hnew, (closesCycle_iff_of_ne hends).mp h⟩
  · rintro ⟨hends, hnew, h⟩
    exact .cycle hends hnew ((closesCycle_iff_of_ne hends).mpr h)

/-- A connection is accepted when it is neither a loop nor a duplicate, and its target reaches
neither its source nor a cycle. -/
theorem checkConnection_eq_none_iff :
  checkConnection edges source target = none
    ↔ source ≠ target ∧ ¬ Linked edges source target ∧ ¬ Reaches edges target source ∧
        ∀ a, Reaches edges target a → ¬ OnCycle edges a
  := by
  rw [checkConnection_eq_iff]
  have hopen (hends : source ≠ target) : closesCycle edges source target = false
      ↔ ¬ Reaches edges target source ∧ ∀ a, Reaches edges target a → ¬ OnCycle edges a := by
    rw [← Bool.not_eq_true, closesCycle_iff_of_ne hends, not_or, not_exists]
    simp only [not_and]
  constructor
  · intro hverdict
    cases hverdict with
    | accepted hends hnew h => exact ⟨hends, hnew, (hopen hends).mp h⟩
  · rintro ⟨hends, hnew, h⟩
    exact .accepted hends hnew ((hopen hends).mpr h)

/-! ### What the verdict depends on -/

/-- Edges that link the same nodes have the same paths. -/
theorem reaches_iff_of_linked {edges' : List Edge}
    (h : ∀ a b, Linked edges' a b ↔ Linked edges a b) (a b : String) :
  (Reaches edges' a b ↔ Reaches edges a b) ∧ (OnCycle edges' a ↔ OnCycle edges a)
  := by
  have hlinked : Linked edges' = Linked edges := by
    funext a b
    apply propext (h a b)
  rw [OnCycle, OnCycle, Reaches, Reaches, Leads, Leads, hlinked]
  apply And.intro Iff.rfl Iff.rfl

/-- The verdict depends on nothing but which nodes are linked, so that neither the order of the
edges nor their repetition counts. -/
theorem checkConnection_congr {edges' : List Edge}
    (h : ∀ a b, Linked edges' a b ↔ Linked edges a b) :
  checkConnection edges' source target = checkConnection edges source target
  := by
  have hreaches := fun a b => (reaches_iff_of_linked h a b).1
  have honCycle := fun a => (reaches_iff_of_linked h a a).2
  cases hverdict : checkConnection edges source target with
  | none =>
    rw [checkConnection_eq_none_iff] at hverdict ⊢
    simpa only [h, hreaches, honCycle] using hverdict
  | some reason =>
    cases reason with
    | selfLoop =>
      rw [checkConnection_eq_selfLoop_iff] at hverdict ⊢
      apply hverdict
    | duplicate =>
      rw [checkConnection_eq_duplicate_iff] at hverdict ⊢
      simpa only [h] using hverdict
    | cycle =>
      rw [checkConnection_eq_cycle_iff] at hverdict ⊢
      simpa only [h, hreaches, honCycle] using hverdict

/-! ### Acyclic edges -/

/-- A second edge between the same nodes closes no cycle. -/
theorem Acyclic.append_of_linked (h : Acyclic edges) {e : Edge}
    (hlinked : Linked edges e.source e.target) :
  Acyclic (edges ++ [e])
  := by
  apply acyclic_append_singleton.mpr
  use h
  intro hback
  apply h e.source
  apply TransGen.head' hlinked hback

/-- From no node do acyclic edges lead to a cycle. -/
theorem Acyclic.reaches_or_iff (h : Acyclic edges) :
  (Reaches edges target source ∨ ∃ a, Reaches edges target a ∧ OnCycle edges a)
    ↔ Reaches edges target source
  := by
  constructor
  · rintro (hback | ⟨a, -, hcycle⟩)
    · apply hback
    · apply absurd hcycle (h a)
  · apply Or.inl

/-- Among acyclic edges a connection between different nodes is said to close a cycle exactly when
the edges would not be acyclic with it. -/
theorem Acyclic.checkConnection_eq_cycle_iff (h : Acyclic edges) (e : Edge) :
  checkConnection edges e.source e.target = some .cycle
    ↔ e.source ≠ e.target ∧ ¬ Acyclic (edges ++ [e])
  := by
  rw [TextPipeline.checkConnection_eq_cycle_iff, h.reaches_or_iff]
  apply and_congr_right
  intro _
  constructor
  · rintro ⟨-, hback⟩ hacyclic
    apply (acyclic_append_singleton.mp hacyclic).2 hback
  · intro hcyclic
    constructor
    · intro hlinked
      apply hcyclic (h.append_of_linked hlinked)
    · by_contra hback
      apply hcyclic
      apply acyclic_append_singleton.mpr ⟨h, hback⟩

/-- Among acyclic edges a connection is accepted exactly when it is new and the edges are acyclic
with it. -/
theorem Acyclic.checkConnection_eq_none_iff (h : Acyclic edges) (e : Edge) :
  checkConnection edges e.source e.target = none
    ↔ ¬ Linked edges e.source e.target ∧ Acyclic (edges ++ [e])
  := by
  rw [TextPipeline.checkConnection_eq_none_iff, acyclic_append_singleton]
  constructor
  · rintro ⟨-, hnew, hback, -⟩
    use hnew, h, hback
  · rintro ⟨hnew, -, hback⟩
    refine ⟨?_, hnew, hback, fun a _ => h a⟩
    intro hends
    apply hback
    rw [hends]

/-- Among any edges, a connection is a loop when its ends are the same, and otherwise a duplicate
when some edge has the same ends.  It is said to close a cycle when it is neither and its target
reaches its source or lies in front of a cycle, and it is accepted in all other cases.  The
verdict depends on nothing but which nodes are linked.  Among acyclic edges a connection between
different nodes is said to close a cycle exactly when the edges would not be acyclic with it, and
every new connection is accepted with which they are. -/
theorem checkConnection_verdicts (edges : List Edge) (source target : String) :
  (checkConnection edges source target = some .selfLoop ↔ source = target) ∧
  (checkConnection edges source target = some .duplicate
    ↔ source ≠ target ∧ ∃ e ∈ edges, e.source = source ∧ e.target = target) ∧
  (checkConnection edges source target = some .cycle
    ↔ source ≠ target ∧ (¬ ∃ e ∈ edges, e.source = source ∧ e.target = target) ∧
        (Reaches edges target source ∨ ∃ a, Reaches edges target a ∧ Leads edges a a)) ∧
  (checkConnection edges source target = none
    ↔ source ≠ target ∧ (¬ ∃ e ∈ edges, e.source = source ∧ e.target = target) ∧
        ¬ Reaches edges target source ∧ ∀ a, Reaches edges target a → ¬ Leads edges a a) ∧
  (∀ edges', (∀ a b, Linked edges' a b ↔ Linked edges a b) →
    checkConnection edges' source target = checkConnection edges source target) ∧
  (Acyclic edges → ∀ e : Edge, e.source = source → e.target = target →
    (checkConnection edges source target = some .cycle
      ↔ source ≠ target ∧ ¬ Acyclic (edges ++ [e])) ∧
    (checkConnection edges source target = none
      ↔ (¬ ∃ e ∈ edges, e.source = source ∧ e.target = target) ∧ Acyclic (edges ++ [e])))
  := by
  refine ⟨checkConnection_eq_selfLoop_iff, checkConnection_eq_duplicate_iff,
    checkConnection_eq_cycle_iff, checkConnection_eq_none_iff, fun _ h => checkConnection_congr h,
    ?_⟩
  rintro h e rfl rfl
  constructor
  · apply h.checkConnection_eq_cycle_iff
  · apply h.checkConnection_eq_none_iff

/-- Two ways that lead from a node to two others, one of which leads on. -/
def halfDiamond : List Edge :=
  [⟨"1", "in", "a"⟩, ⟨"2", "in", "b"⟩, ⟨"3", "a", "c"⟩]

/-- The edges of the half diamond are acyclic. -/
theorem acyclic_halfDiamond :
  Acyclic halfDiamond
  := by
  have hload : Graph.ofDocument ⟨["in", "a", "b", "c"].map (Node.plain · ""), halfDiamond⟩
      = .ok ⟨["in", "a", "b", "c"].map (Node.plain · ""), halfDiamond⟩ := by
    cbv
  apply (Graph.ofDocument_eq_ok_iff.mp hload).1.acyclic

/-- The other half of the diamond closes no cycle and is accepted, the way back closes one and is
refused. -/
theorem checkConnection_halfDiamond :
  Acyclic halfDiamond ∧ Acyclic (halfDiamond ++ [⟨"4", "b", "c"⟩]) ∧
    ¬ Acyclic (halfDiamond ++ [⟨"4", "c", "in"⟩])
  := by
  use acyclic_halfDiamond
  obtain ⟨-, -, -, -, -, hforth⟩ := checkConnection_verdicts halfDiamond "b" "c"
  obtain ⟨-, -, -, -, -, hback⟩ := checkConnection_verdicts halfDiamond "c" "in"
  have haccepted : checkConnection halfDiamond "b" "c" = none := by
    cbv
  have hrefused : checkConnection halfDiamond "c" "in" = some .cycle := by
    cbv
  constructor
  · apply ((hforth acyclic_halfDiamond _ rfl rfl).2.mp haccepted).2
  · apply ((hback acyclic_halfDiamond _ rfl rfl).1.mp hrefused).2

end TextPipeline
