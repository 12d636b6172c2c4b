import TextPipeline.Proofs.Pipeline.CycleSearch

/-!
# Searching without clearing

The plain search for cycles keeps nothing but the nodes on the way.  It enters a node again
whenever an edge leads to it, however often it has left it before, and it still comes to an end,
for no node comes twice on the way.  It meets the way exactly when the node it begins at reaches a
node on the way or a cycle.  The search that clears the nodes it leaves answers the same: what it
does not enter again has led it neither to the source nor to a cycle.
-/

namespace TextPipeline

open Relation

/-- Whether a walk into depth from a node meets a node on the way, when the nodes of `way` are on
the way to begin with. -/
def meetsWay (edges : List Edge) (way : List String) (node : String) : Bool :=
  if node ∈ way then true
  else (successors edges node).attach.any fun ⟨next, _⟩ => meetsWay edges (node :: way) next
termination_by (edges.filter fun e => e.source ∉ way).length
decreasing_by
  -- The edge to the successor begins at a node that was not on the way and now is.
  rename_i hnew hnext
  obtain ⟨e, he, rfl, -⟩ := mem_successors.mp hnext
  apply Walk.length_filter_lt _ he
  · simpa using hnew
  · simp
  · simp +contextual

variable {edges : List Edge} {source target node : String} {way : List String}

/-- The way is met at the node itself or from one of its successors. -/
theorem meetsWay_iff_exists_linked :
  meetsWay edges way node = true
    ↔ node ∈ way ∨ ∃ next, Linked edges node next ∧ meetsWay edges (node :: way) next = true
  := by
  rw [meetsWay]
  split
  · next hway => simp [hway]
  · next hnew => simp [mem_successors, hnew]

/-- The node reaches a node on the way, or it reaches some cycle. -/
def Returns (edges : List Edge) (way : List String) (node : String) : Prop :=
  (∃ a ∈ way, Reaches edges node a) ∨ ∃ a, Reaches edges node a ∧ OnCycle edges a

/-- A node that is not on the way returns when one of its successors does, the node itself being on
the way by then: it may be that node to which the successor leads back. -/
theorem returns_iff_exists_linked (hnew : node ∉ way) :
  Returns edges way node ↔ ∃ next, Linked edges node next ∧ Returns edges (node :: way) next
  := by
  constructor
  · rintro (⟨a, ha, hreach⟩ | ⟨a, hreach, hcycle⟩)
    · obtain rfl | ⟨next, hlink, hreach⟩ := ReflTransGen.cases_head hreach
      · apply absurd ha hnew
      · use next, hlink
        left
        use a, List.mem_cons_of_mem _ ha
    · obtain rfl | ⟨next, hlink, hreach⟩ := ReflTransGen.cases_head hreach
      · obtain ⟨next, hlink, hback⟩ := TransGen.head'_iff.mp hcycle
        use next, hlink
        left
        use node, List.mem_cons_self
      · use next, hlink
        right
        use a
  · rintro ⟨next, hlink, ⟨a, ha, hreach⟩ | ⟨a, hreach, hcycle⟩⟩
    · obtain rfl | ha := List.mem_cons.mp ha
      · right
        use a, .refl
        apply TransGen.head' hlink hreach
      · left
        use a, ha
        apply ReflTransGen.head hlink hreach
    · right
      use a, ReflTransGen.head hlink hreach

/-- The way is met exactly when the node returns to it. -/
theorem meetsWay_iff :
  meetsWay edges way node = true ↔ Returns edges way node
  := by
  induction way, node using meetsWay.induct edges with
  | case1 way node hway =>
    rw [meetsWay_iff_exists_linked]
    apply iff_of_true (.inl hway)
    left
    use node, hway
  | case2 way node hnew ih =>
    rw [meetsWay_iff_exists_linked, or_iff_right hnew, returns_iff_exists_linked hnew]
    apply exists_congr
    intro next
    apply and_congr_right
    intro hlink
    apply ih next (mem_successors.mpr hlink)

/-- The search that clears the nodes it leaves finds a cycle exactly when the plain search from the
target does, with the source on the way.  Nothing is asked of the edges: they may hold cycles
already. -/
theorem closesCycle_eq_meetsWay (edges : List Edge) (source target : String) :
  closesCycle edges source target = meetsWay edges [source] target
  := by
  rw [Bool.eq_iff_iff, closesCycle_iff, meetsWay_iff, Returns]
  simp only [List.mem_singleton, exists_eq_left]
  constructor
  · rintro (rfl | hreturns)
    · exact .inl .refl
    · apply hreturns
  · apply Or.inr

end TextPipeline
