import Mathlib.Algebra.Order.BigOperators.Group.List
import Mathlib.Algebra.Order.Ring.Nat
import Mathlib.Data.List.Perm.Subperm
import TextPipeline.Proofs.Pipeline.CycleSearch

/-!
# Runs of the search for cycles

A run of the search is told by its steps and by the nodes that they have put on the stack.  Each of
these is on the stack or cleared, and none of them has been put there twice.  So a run looks at each
edge once at most and leaves each node once at most, and has a number of steps that the number of
edges bounds, whatever edges there are.
-/

namespace TextPipeline

namespace Walk

variable {edges : List Edge} {source target : String} {n : Nat} {pushed : List String} {w w' : Walk}

/-- The nodes that a step from `w` to `w'` has put on the stack. -/
def entered (w w' : Walk) : List String :=
  w'.nodes.take (w'.nodes.length - w.nodes.length)

/-- The search for a cycle that an edge from `source` to `target` would close comes to `w` after `n`
steps.  The nodes of `pushed` have been put on the stack up to there, the last one in front. -/
inductive ComesTo (edges : List Edge) (source target : String) : Nat → List String → Walk → Prop where
  | start : ComesTo edges source target 0 [target] (start source target)
  | step {n : Nat} {pushed : List String} {w w' : Walk} (h : ComesTo edges source target n pushed w)
      (hstep : w.step edges = .next w') :
      ComesTo edges source target (n + 1) (entered w w' ++ pushed) w'

/-- The invariant holds at every point of a run. -/
theorem ComesTo.invariant (h : ComesTo edges source target n pushed w) (hne : source ≠ target) :
  w.Invariant edges source target
  := by
  induction h with
  | start => apply Invariant.start hne
  | step _ hstep ih => apply ih.step hstep

/-! ### What the invariant says of the frames -/

/-- The successors that a frame of the stack has looked at are cleared, but for the node of the
frame above it. -/
theorem LookedAt.mem_or_eq {cleared : List String} {first : Option String} {above below : List Frame}
    {f : Frame} (h : LookedAt edges cleared first (above ++ f :: below)) {b : String}
    (hb : b ∈ (successors edges f.node).take f.cursor) :
  b ∈ cleared ∨ (∃ g ∈ above.getLast?, g.node = b) ∨ above = [] ∧ first = some b
  := by
  induction above generalizing first with
  | nil =>
    apply (h.1 b hb).imp_right
    intro hfirst
    exact .inr ⟨rfl, hfirst⟩
  | cons g above ih =>
    obtain hcleared | ⟨g', hg', hnode⟩ | ⟨rfl, hfirst⟩ := ih h.2
    · exact .inl hcleared
    · right
      left
      use g'
      cases above with
      | nil => simp at hg'
      | cons g₂ above => exact ⟨hg', hnode⟩
    · right
      left
      use g, rfl
      apply Option.some.inj hfirst

/-- The members of a settled list are distinct. -/
theorem Settled.nodup {cleared : List String} (h : Settled edges cleared) :
  cleared.Nodup
  := by
  induction cleared with
  | nil => apply List.nodup_nil
  | cons a before ih => apply List.nodup_cons.mpr ⟨h.1, ih h.2.2⟩

/-- When a node is cleared, its successors have been cleared at an earlier point of the run, at
which the node itself had not been cleared. -/
theorem ComesTo.exists_earlier (h : ComesTo edges source target n pushed w) (hne : source ≠ target)
    {a : String} (ha : a ∈ w.cleared) :
  ∃ m pushed₀ w₀, m < n ∧ ComesTo edges source target m pushed₀ w₀ ∧ a ∉ w₀.cleared ∧
    ∀ b, Linked edges a b → b ∈ w₀.cleared
  := by
  induction h with
  | start => simp [Walk.start] at ha
  | @step n pushed w w' h hstep ih =>
    have hearlier : a ∈ w.cleared → ∃ m pushed₀ w₀, m < n + 1 ∧
        ComesTo edges source target m pushed₀ w₀ ∧ a ∉ w₀.cleared ∧
        ∀ b, Linked edges a b → b ∈ w₀.cleared := by
      intro ha
      obtain ⟨m, pushed₀, w₀, hm, hrest⟩ := ih ha
      exact ⟨m, pushed₀, w₀, Nat.lt_succ_of_lt hm, hrest⟩
    have hsettled := ((h.invariant hne).step hstep).settled
    cases advances_of_step hstep with
    | skip => apply hearlier ha
    | enter => apply hearlier ha
    | leave =>
      -- The node that is left here has its earlier point just before this step.
      obtain rfl | ha := List.mem_cons.mp ha
      · exact ⟨n, pushed, _, Nat.lt_succ_self n, h, hsettled.1, hsettled.2.1⟩
      · apply hearlier ha

/-! ### Counting -/

/-- Distinct nodes have no more successors than there are edges. -/
theorem sum_length_successors_le {nodes : List String} (h : nodes.Nodup) (edges : List Edge) :
  (nodes.map fun a => (successors edges a).length).sum ≤ edges.length
  := by
  induction nodes generalizing edges with
  | nil => simp
  | cons a nodes ih =>
    obtain ⟨ha, hnodes⟩ := List.nodup_cons.mp h
    -- The other nodes have their successors by edges that do not begin at `a`.
    have hothers : nodes.map (fun b => (successors edges b).length)
        = nodes.map fun b => (successors (edges.filter (·.source ≠ a)) b).length := by
      apply List.map_congr_left
      intro b hb
      have hne : b ≠ a := ne_of_mem_of_not_mem hb ha
      simp only [successors, List.length_map, List.filter_filter]
      congr 2
      funext e
      grind
    have hrest := ih hnodes (edges.filter (·.source ≠ a))
    have hsplit := List.length_eq_length_filter_add (l := edges) fun e => decide (e.source = a)
    rw [← hothers] at hrest
    simp only [List.map_cons, List.sum_cons, successors, List.length_map, decide_not, ne_eq]
      at hrest hsplit ⊢
    omega

/-- What a run has done: the nodes that have been put on the stack are there or cleared, no frame
has looked at more successors than there are, and each step has looked at a successor or left a
node. -/
structure Tally (edges : List Edge) (target : String) (n : Nat) (pushed : List String) (w : Walk) :
    Prop where
  perm : pushed.Perm (w.nodes ++ w.cleared)
  known : pushed ⊆ target :: edges.map (·.target)
  cursor : ∀ f ∈ w.stack, f.cursor ≤ (successors edges f.node).length
  steps : n = (w.stack.map (·.cursor)).sum +
    (w.cleared.map fun a => (successors edges a).length + 1).sum

/-- Before the first step nothing has been done. -/
theorem tally_start :
  (start source target).Tally edges target 0 [target]
  := by
  constructor
  · apply List.Perm.refl
  · simp
  · simp [Walk.start]
  · rfl

/-- A step is one more thing that has been done. -/
theorem Tally.step (h : w.Tally edges target n pushed) (hadvances : Advances edges w w') :
  w'.Tally edges target (n + 1) (entered w w' ++ pushed)
  := by
  obtain ⟨hperm, hknown, hcursor, hsteps⟩ := h
  cases hadvances with
  | @skip top below path cleared next hnext _ _ =>
    obtain ⟨hlt, -⟩ := List.getElem?_eq_some_iff.mp hnext
    constructor
    · simpa [entered, nodes] using hperm
    · simpa [entered, nodes] using hknown
    · intro f hf
      obtain rfl | hf := List.mem_cons.mp hf
      · apply Nat.succ_le_of_lt hlt
      · apply hcursor f (List.mem_cons_of_mem _ hf)
    · simp only [List.map_cons, List.sum_cons] at hsteps ⊢
      omega
  | @enter top below path cleared next hnext _ _ =>
    obtain ⟨hlt, hget⟩ := List.getElem?_eq_some_iff.mp hnext
    have hentered : entered ⟨top :: below, path, cleared⟩
        ⟨⟨next, 0⟩ :: ⟨top.node, top.cursor + 1⟩ :: below, next :: path, cleared⟩ = [next] := by
      simp [entered, nodes]
    rw [hentered]
    constructor
    · apply hperm.cons
    · obtain ⟨e, he, -, rfl⟩ := mem_successors.mp (List.mem_of_getElem? hnext)
      apply List.cons_subset.mpr ⟨_, hknown⟩
      apply List.mem_cons_of_mem _ (List.mem_map_of_mem he)
    · intro f hf
      obtain rfl | hf := List.mem_cons.mp hf
      · apply Nat.zero_le
      · obtain rfl | hf := List.mem_cons.mp hf
        · apply Nat.succ_le_of_lt hlt
        · apply hcursor f (List.mem_cons_of_mem _ hf)
    · simp only [List.map_cons, List.sum_cons] at hsteps ⊢
      omega
  | @leave top below path cleared hnone =>
    have hentered : entered ⟨top :: below, path, cleared⟩
        ⟨below, path.filter (· ≠ top.node), top.node :: cleared⟩ = [] := by
      simp [entered, nodes]
    rw [hentered]
    constructor
    · apply hperm.trans
      apply List.perm_middle.symm
    · apply hknown
    · intro f hf
      apply hcursor f (List.mem_cons_of_mem _ hf)
    · -- All successors of the node that is left have been looked at, and none beyond them.
      have hle := hcursor top List.mem_cons_self
      have hge := List.getElem?_eq_none_iff.mp hnone
      simp only [List.map_cons, List.sum_cons] at hsteps ⊢
      omega

/-- The steps of a run are told by its nodes, and are bounded by the number of edges if these are
distinct. -/
theorem Tally.le (h : w.Tally edges target n pushed) (hnodup : (w.nodes ++ w.cleared).Nodup) :
  n ≤ 2 * edges.length + 1
  := by
  have hlooked : (w.stack.map (·.cursor)).sum
      ≤ (w.nodes.map fun a => (successors edges a).length).sum := by
    rw [nodes, List.map_map]
    apply List.sum_le_sum h.cursor
  have hleft : (w.cleared.map fun a => (successors edges a).length + 1).sum
      = (w.cleared.map fun a => (successors edges a).length).sum + w.cleared.length := by
    simp [List.sum_map_add]
  have hsuccessors := sum_length_successors_le hnodup edges
  have hcleared : w.cleared.length ≤ edges.length + 1 := by
    have hpushed := (h.perm.nodup_iff.mpr hnodup).subperm h.known
    have hlength := hpushed.length_le
    rw [h.perm.length_eq] at hlength
    simp only [List.length_append, List.length_cons, List.length_map] at hlength
    omega
  rw [List.map_append, List.sum_append] at hsuccessors
  have hsteps := h.steps
  omega

/-- Every point of a run is told by what has been done. -/
theorem ComesTo.tally (h : ComesTo edges source target n pushed w) :
  w.Tally edges target n pushed
  := by
  induction h with
  | start => apply tally_start
  | step _ hstep ih => apply ih.step (advances_of_step hstep)

/-- The nodes that are on the stack or cleared are distinct. -/
theorem Invariant.nodup (h : w.Invariant edges source target) :
  (w.nodes ++ w.cleared).Nodup
  := by
  have hdistinct := h.distinct
  have hdisjoint := h.disjoint
  rw [h.way] at hdistinct hdisjoint
  apply List.nodup_append'.mpr
  refine ⟨hdistinct.of_append_left, h.settled.nodup, ?_⟩
  apply List.disjoint_of_subset_left (List.subset_append_left _ _) hdisjoint

/-- A run goes on until a node on the way is met or no node is on the stack, and this is the answer
of the search. -/
theorem ComesTo.exists_end (h : ComesTo edges source target n pushed w) :
  ∃ m all last, ComesTo edges source target m all last ∧
    (last.step edges = .cycle ∧ w.findsCycle edges = true ∨
      last.step edges = .exhausted ∧ w.findsCycle edges = false)
  := by
  fun_induction findsCycle edges w generalizing n pushed with
  | case1 w hstep => exact ⟨n, pushed, w, h, .inl ⟨hstep, rfl⟩⟩
  | case2 w hstep => exact ⟨n, pushed, w, h, .inr ⟨hstep, rfl⟩⟩
  | case3 w w' hstep ih => apply ih (h.step hstep)

end Walk

open Walk in
/-- The loop of the search for cycles, for any edges and any two distinct nodes.  At every point of
it the nodes on the stack are distinct and form a path that begins at the target; on the way are the
source and the nodes on the stack; none of them is cleared; the successors of a cleared node were
cleared before it, so that it reaches neither the source nor a cycle; and the successors that a node
on the stack has looked at are cleared, but for the next node on the stack.  Each node is put on the
stack once at most.  The loop ends with the answer of the search, after no more steps than twice the
number of edges and one. -/
theorem search_loop (edges : List Edge) {source target : String} (hne : source ≠ target) :
  (∀ n pushed w, ComesTo edges source target n pushed w →
    w.nodes.Nodup ∧
    (w.nodes.reverse.IsChain (Linked edges) ∧ ∀ first ∈ w.nodes.reverse.head?, first = target) ∧
    (∀ a, a ∈ w.path ↔ a = source ∨ a ∈ w.nodes) ∧
    w.path.Disjoint w.cleared ∧
    (∀ a ∈ w.cleared,
      (∃ m pushed₀ w₀, m < n ∧ ComesTo edges source target m pushed₀ w₀ ∧ a ∉ w₀.cleared ∧
        ∀ b, Linked edges a b → b ∈ w₀.cleared) ∧
      ¬ Reaches edges a source ∧ ¬ OnCycle edges a) ∧
    (∀ above f below, w.stack = above ++ f :: below →
      ∀ b ∈ (successors edges f.node).take f.cursor,
        b ∈ w.cleared ∨ ∃ next ∈ above.getLast?, next.node = b) ∧
    pushed.Nodup ∧ n ≤ 2 * edges.length + 1) ∧
  ∃ n pushed w, ComesTo edges source target n pushed w ∧
    (w.step edges = .cycle ∧ closesCycle edges source target = true ∨
      w.step edges = .exhausted ∧ closesCycle edges source target = false)
  := by
  constructor
  · intro n pushed w hrun
    have h := hrun.invariant hne
    have hnodup := h.nodup
    have hsource : source ∉ w.cleared := by
      apply h.disjoint
      simp [h.way]
    refine ⟨hnodup.of_append_left, ⟨?_, ?_⟩, ?_, h.disjoint, ?_, ?_, ?_, ?_⟩
    · rw [List.isChain_reverse]
      apply h.chain
    · intro first hfirst
      rw [List.head?_reverse] at hfirst
      obtain horigin | ⟨hnil, -⟩ := h.origin
      · rw [horigin] at hfirst
        apply (Option.some.inj hfirst).symm
      · simp [hnil] at hfirst
    · intro a
      rw [h.way, List.mem_append, List.mem_singleton, or_comm]
    · intro a ha
      refine ⟨hrun.exists_earlier hne ha, ?_, h.settled.not_onCycle ha⟩
      intro hreach
      apply hsource (h.settled.reaches ha hreach)
    · intro above f below hstack b hb
      have hlooked := h.looked
      rw [hstack] at hlooked
      apply (hlooked.mem_or_eq hb).imp_right
      rintro (hnext | ⟨-, hnone⟩)
      · apply hnext
      · cases hnone
    · apply hrun.tally.perm.nodup_iff.mpr hnodup
    · apply hrun.tally.le hnodup
  · have hstart : ComesTo edges source target 0 [target] (Walk.start source target) := .start
    obtain ⟨n, pushed, w, hrun, hend⟩ := hstart.exists_end
    use n, pushed, w, hrun
    have hanswer : closesCycle edges source target = (Walk.start source target).findsCycle edges := by
      simp [closesCycle, hne]
    rw [hanswer]
    apply hend

/-- Edges that lead into a circle, and on two ways to a node without successors. -/
def windingEdges : List Edge :=
  [⟨"1", "a", "d"⟩, ⟨"2", "a", "b"⟩, ⟨"3", "b", "d"⟩, ⟨"4", "b", "c"⟩, ⟨"5", "c", "b"⟩]

/-- The loop ends in the circle, although the source is not on it. -/
theorem search_loop_winding :
  "s" ≠ "a" ∧ ∃ n pushed w, Walk.ComesTo windingEdges "s" "a" n pushed w ∧
    w.step windingEdges = .cycle ∧ pushed.Nodup ∧ n ≤ 11
  := by
  have hne : "s" ≠ "a" := by decide
  obtain ⟨hpoints, n, pushed, w, hrun, hend⟩ := search_loop windingEdges hne
  obtain ⟨-, -, -, -, -, -, hnodup, hbound⟩ := hpoints n pushed w hrun
  have hcycle : closesCycle windingEdges "s" "a" = true := by
    apply closesCycle_iff.mpr
    have hab : Linked windingEdges "a" "b" := by simp [Linked, windingEdges]
    have hbc : Linked windingEdges "b" "c" := by simp [Linked, windingEdges]
    have hcb : Linked windingEdges "c" "b" := by simp [Linked, windingEdges]
    right
    right
    use "b", Relation.ReflTransGen.single hab
    apply Relation.TransGen.tail (Relation.TransGen.single hbc) hcb
  rw [hcycle] at hend
  have hstep : w.step windingEdges = .cycle := by simpa using hend
  exact ⟨hne, n, pushed, w, hrun, hstep, hnodup, hbound⟩

end TextPipeline
