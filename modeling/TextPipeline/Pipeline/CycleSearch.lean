import TextPipeline.Pipeline.Document

/-!
# The search for cycles

Whether one more edge would close a cycle is found by a walk along the edges from its target.
The walk goes into depth and keeps the nodes on the way from the target in a stack; the source
counts as lying on the way too, and the walk has found a cycle when it comes upon a node on the
way.  A node that the walk has left is cleared and is not entered again.

The walk comes to an end on every list of edges: each step either enters a node that was neither
on the way nor cleared, or leaves less to do for the nodes on the stack.
-/

namespace TextPipeline

/-- The targets of the edges from a node, in the order of the edges. -/
def successors (edges : List Edge) (node : String) : List String :=
  (edges.filter (·.source = node)).map (·.target)

/-- A node on the stack, and how many of its successors have been looked at. -/
structure Frame where
  node : String
  cursor : Nat
deriving DecidableEq, Repr

/-- The state of a walk: the stack with the node entered last on top, the nodes on the way, and
the nodes that the walk has left. -/
structure Walk where
  stack : List Frame
  path : List String
  cleared : List String
deriving DecidableEq, Repr

namespace Walk

/-- What a step of a walk comes to. -/
inductive Outcome where
  /-- A node on the way has been met again. -/
  | cycle
  /-- All nodes that can be reached have been left. -/
  | exhausted
  | next (walk : Walk)
deriving DecidableEq, Repr

/-- The walk from `target` before the first step, with `source` on the way. -/
def start (source target : String) : Walk :=
  ⟨[⟨target, 0⟩], [target, source], []⟩

/-- One step: look at the next successor of the node on top of the stack, or leave that node if
it has no more. -/
def step (edges : List Edge) (w : Walk) : Outcome :=
  match w.stack with
  | [] => .exhausted
  | top :: below =>
    match (successors edges top.node)[top.cursor]? with
    | some next =>
      if next ∈ w.path then .cycle
      else
        let advanced := ⟨top.node, top.cursor + 1⟩ :: below
        if next ∈ w.cleared then .next { w with stack := advanced }
        else .next { w with stack := ⟨next, 0⟩ :: advanced, path := next :: w.path }
    | none =>
      .next ⟨below, w.path.filter (· ≠ top.node), top.node :: w.cleared⟩

/-- The number of edges into nodes that are neither on the way nor cleared. -/
def unseen (edges : List Edge) (w : Walk) : Nat :=
  (edges.filter fun e => e.target ∉ w.path ∧ e.target ∉ w.cleared).length

/-- The number of steps that the nodes of a stack need if no node is entered. -/
def stackWork (edges : List Edge) : List Frame → Nat
  | [] => 0
  | f :: fs => (successors edges f.node).length - f.cursor + 1 + stackWork edges fs

/-- The number of steps that are left if no node is entered. -/
def work (edges : List Edge) (w : Walk) : Nat :=
  stackWork edges w.stack

/-- A filter that lets less pass gives a shorter list if it stops a member. -/
theorem length_filter_lt {α : Type} {p q : α → Bool} {xs : List α} {a : α}
    (hpq : ∀ x, p x = true → q x = true) (ha : a ∈ xs) (hq : q a = true) (hp : p a = false) :
  (xs.filter p).length < (xs.filter q).length
  := by
  have hle : ∀ ys : List α, (ys.filter p).length ≤ (ys.filter q).length := by
    intro ys
    rw [← List.countP_eq_length_filter, ← List.countP_eq_length_filter]
    exact List.countP_mono_left fun x _ => hpq x
  obtain ⟨front, back, rfl⟩ := List.append_of_mem ha
  have := hle front
  have := hle back
  simp [List.filter_append, hq, hp]
  omega

/-- A step that does not end the walk enters a new node, or enters none and leaves less to do. -/
theorem step_decreases {edges : List Edge} {w w' : Walk} (h : w.step edges = .next w') :
  w'.unseen edges < w.unseen edges ∨
    w'.unseen edges ≤ w.unseen edges ∧ w'.work edges < w.work edges
  := by
  unfold step at h
  split at h
  · simp at h
  · next top below hstack =>
    split at h
    · next next hnext =>
      obtain ⟨hlt, hget⟩ := List.getElem?_eq_some_iff.1 hnext
      split at h
      · simp at h
      · next hpath =>
        simp only at h
        split at h
        · right
          simp only [Outcome.next.injEq] at h
          subst h
          simp only [unseen, work, stackWork, hstack, Nat.le_refl, true_and]
          omega
        · next hcleared =>
          left
          simp only [Outcome.next.injEq] at h
          subst h
          have hmem : next ∈ successors edges top.node := by
            simp [← hget]
          obtain ⟨e, he, rfl⟩ := List.mem_map.1 hmem
          refine length_filter_lt (a := e) ?_ (List.mem_filter.1 he).1 ?_ ?_ <;> simp_all
    · next hnone =>
      right
      simp only [Outcome.next.injEq] at h
      subst h
      constructor
      · simp only [unseen, ← List.countP_eq_length_filter]
        apply List.countP_mono_left
        intro e _ he
        simp only [List.mem_filter, List.mem_cons, decide_eq_true_eq] at he ⊢
        grind
      · simp only [work, stackWork, hstack]
        omega

/-- Whether the walk meets a node on the way again. -/
def findsCycle (edges : List Edge) (w : Walk) : Bool :=
  match _h : w.step edges with
  | .cycle => true
  | .exhausted => false
  | .next w' => findsCycle edges w'
termination_by (w.unseen edges, w.work edges)
decreasing_by
  rcases step_decreases ‹_› with h | ⟨h, h'⟩
  · exact Prod.Lex.left _ _ h
  · rcases Nat.lt_or_eq_of_le h with h | h
    · exact Prod.Lex.left _ _ h
    · rw [h]
      exact Prod.Lex.right _ h'

end Walk

/-- Whether an edge from `source` to `target` would close a cycle. -/
def closesCycle (edges : List Edge) (source target : String) : Bool :=
  source = target || (Walk.start source target).findsCycle edges

end TextPipeline
