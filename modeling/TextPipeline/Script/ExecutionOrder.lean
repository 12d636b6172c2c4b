import TextPipeline.Pipeline.Graph

/-!
# The execution order

The nodes of a graph are executed in the order of a walk in breadth.  It begins at the roots, the
input nodes without an edge into them, in the order of the nodes.  A node is visited when it comes
to the front of the queue for the first time, and then its successors that are not yet visited
are put at the end of the queue, in the order of the edges.  An edge leads to the last node that has
the id of its target.

The walk comes to an end on every graph: the successors of a node are put into the queue once, so
that the queue is fed at most as often as there are edges.
-/

namespace TextPipeline

/-- Whether a walk begins at a node.  An edge from an id that no node has does not count. -/
def Graph.isRoot (g : Graph) (n : Node) : Bool :=
  n.isInput && g.edges.all fun e => e.target ≠ n.id || !g.contains e.source

/-- The nodes at which a walk begins. -/
def Graph.roots (g : Graph) : List Node :=
  g.nodes.filter g.isRoot

/-- The node of a given id, the last one if several nodes have it. -/
def Graph.lastNode? (g : Graph) (id : String) : Option Node :=
  g.nodes.reverse.find? (·.id = id)

/-- The state of a walk: the nodes that wait and those that have been visited. -/
structure Tour where
  queue : List Node
  order : List Node
deriving DecidableEq

namespace Tour

/-- The walk before the first step. -/
def start (g : Graph) : Tour := ⟨g.roots, []⟩

/-- Whether the node of a given id has been visited. -/
def visited (t : Tour) (id : String) : Bool :=
  t.order.any (·.id = id)

/-- The walk after a visit to `n`, the nodes in `queue` waiting besides. -/
def visit (g : Graph) (t : Tour) (n : Node) (queue : List Node) : Tour :=
  let t' : Tour := ⟨queue, t.order ++ [n]⟩
  let targets := (successors g.edges n.id).filter fun id => !t'.visited id
  { t' with queue := queue ++ targets.filterMap g.lastNode? }

/-- One step, unless no node waits. -/
def step (g : Graph) (t : Tour) : Option Tour :=
  match t.queue with
  | [] => none
  | n :: queue => some (if t.visited n.id then { t with queue := queue } else t.visit g n queue)

/-- The number of steps that may be left: the nodes that wait, and the edges from nodes that have
not been visited. -/
def remaining (g : Graph) (t : Tour) : Nat :=
  t.queue.length + (g.edges.filter fun e => !t.visited e.source).length

/-- A visit moves the edges of a node from the edges that are left into the queue. -/
theorem remaining_visit (g : Graph) (t : Tour) (n : Node) (queue : List Node)
    (h : t.visited n.id = false) :
  (t.visit g n queue).remaining g ≤
    queue.length + (g.edges.filter fun e => !t.visited e.source).length
  := by
  have hsplit : ∀ es : List Edge,
      (es.filter fun e => !(⟨queue, t.order ++ [n]⟩ : Tour).visited e.source).length +
        (successors es n.id).length
      = (es.filter fun e => !t.visited e.source).length := by
    intro es
    induction es with
    | nil => rfl
    | cons e es ih =>
      simp only [successors, List.length_map, visited, List.any_append, List.any_cons,
        List.any_nil, Bool.or_false, List.filter_cons] at h ih ⊢
      by_cases he : e.source = n.id
      · simp [he, h] at ih ⊢
        omega
      · have hne : (n.id = e.source) = False := eq_false fun h' => he h'.symm
        simp only [he, hne, decide_false, Bool.or_false, Bool.false_eq_true, if_false] at ih ⊢
        split
        · simp_all
          omega
        · simp_all
  have hqueue : ∀ ids : List String,
      ((ids.filter fun id => !(⟨queue, t.order ++ [n]⟩ : Tour).visited id).filterMap
        g.lastNode?).length ≤ ids.length := by
    intro ids
    exact Nat.le_trans (List.length_filterMap_le ..) (List.length_filter_le ..)
  have := hsplit g.edges
  have := hqueue (successors g.edges n.id)
  simp only [visit, remaining, List.length_append]
  simp only [visited] at *
  omega

/-- A step leaves fewer steps. -/
theorem step_decreases {g : Graph} {t t' : Tour} (h : t.step g = some t') :
  t'.remaining g < t.remaining g
  := by
  unfold step at h
  split at h
  · simp at h
  · next n queue hqueue =>
    simp only [Option.some.injEq] at h
    split at h
    · subst h
      simp [remaining, visited, hqueue]
    · next hn =>
      subst h
      have := remaining_visit g t n queue (by simpa using hn)
      simp only [remaining, hqueue, List.length_cons] at this ⊢
      omega

/-- The nodes visited when no node waits any more. -/
def finish (g : Graph) (t : Tour) : List Node :=
  match _h : t.step g with
  | none => t.order
  | some t' => finish g t'
termination_by t.remaining g
decreasing_by exact step_decreases ‹_›

end Tour

/-- The nodes of a graph in the order in which they are executed. -/
def Graph.executionOrder (g : Graph) : List Node :=
  (Tour.start g).finish g

end TextPipeline
