import TextPipeline.Proofs.Script.VisitingInTurn

/-!
# Runs of the walk in breadth

Each step of the walk takes a node off the front of the queue.  A node that is visited feeds the
queue with its successors, and no two nodes of one id are visited.  So no more nodes are taken off
than there are roots and edges, and the walk goes on until no node waits.  This is so for every list
of nodes and every list of edges, be they those of a valid graph or not.
-/

namespace TextPipeline

namespace Tour

variable {g : Graph} {taken : List Node} {t u : Tour}

/-- The walk comes to `t`, and the nodes of `taken` have been taken off the queue up to there, in
their order. -/
inductive ComesTo (g : Graph) : List Node → Tour → Prop where
  | start : ComesTo g [] (start g)
  | step {taken queue : List Node} {n : Node} {t u : Tour} (h : ComesTo g taken t)
      (hqueue : t.queue = n :: queue) (hstep : t.step g = some u) : ComesTo g (taken ++ [n]) u

/-! ### What feeds the queue -/

/-- The nodes that have been taken off the queue and those that wait come in turn from the roots and
from the successors of the visited nodes, those of each visited node being put in once at most. -/
def Fed (g : Graph) (taken : List Node) (t : Tour) : Prop :=
  ((taken ++ t.queue).map (·.id)).Sublist (t.offered g)

/-- Before the first step the roots wait. -/
theorem fed_start (g : Graph) :
  (start g).Fed g []
  := by
  simp [Fed, start, offered, Graph.rootIds]

/-- A visit feeds the queue with successors of the visited node, any other step does not feed it. -/
theorem Fed.step (h : t.Fed g taken) {n : Node} {queue : List Node} (hqueue : t.queue = n :: queue)
    (hu : t.step g = some u) :
  u.Fed g (taken ++ [n])
  := by
  rw [Fed, hqueue, List.append_cons] at h
  obtain ⟨_, _, hsame, hcase⟩ := step_eq_some_iff.mp hu
  obtain ⟨rfl, rfl⟩ := List.cons.inj (hqueue.symm.trans hsame)
  obtain ⟨-, rfl⟩ | ⟨-, rfl⟩ := hcase
  · apply h
  · rw [Fed, List.map_append, map_id_queue_visit, ← List.append_assoc, ← List.map_append,
      offered_visit]
    apply h.append List.filter_sublist

/-! ### What waits -/

/-- Every node that waits or has been visited is a root or comes right behind a visited one. -/
def Grounded (g : Graph) (t : Tour) : Prop :=
  ∀ n ∈ t.order ++ t.queue, n ∈ g.roots ∨ ∃ m ∈ t.order, n.id ∈ g.knownSuccessors m.id

/-- Before the first step nothing but the roots waits. -/
theorem grounded_start (g : Graph) :
  (start g).Grounded g
  := by
  intro n hn
  left
  apply hn

/-- A step leaves every node a root or right behind a visited one. -/
theorem Grounded.step (h : t.Grounded g) (hu : t.step g = some u) :
  u.Grounded g
  := by
  obtain ⟨n, queue, hqueue, hcase⟩ := step_eq_some_iff.mp hu
  rw [Grounded, hqueue] at h
  obtain ⟨-, rfl⟩ | ⟨-, rfl⟩ := hcase
  · intro m hm
    apply h m
    simp only [List.mem_append, List.mem_cons] at hm ⊢
    tauto
  · have hold : ∀ m ∈ t.order ++ n :: queue, m ∈ g.roots ∨
        ∃ m' ∈ (t.visit g n queue).order, m.id ∈ g.knownSuccessors m'.id := by
      intro m hm
      apply (h m hm).imp_right
      rintro ⟨m', hm', hnext⟩
      use m', List.mem_append_left _ hm'
    intro m hm
    obtain hm | hm := List.mem_append.mp hm
    · apply hold m
      rw [List.append_cons]
      apply List.mem_append_left _ hm
    · obtain hm | ⟨b, hlink, -, hb⟩ := mem_queue_visit.mp hm
      · apply hold m
        simp [hm]
      · right
        use n, List.mem_append_right _ (List.mem_singleton_self n)
        rw [(Graph.mem_of_lastNode? hb).2, Graph.mem_knownSuccessors, ← Graph.isSome_lastNode?_iff,
          hb]
        exact ⟨hlink, rfl⟩

/-- What has been met is the id of a node that has been visited or waits. -/
theorem Met.exists_mem {id : String} (h : t.Met id) :
  ∃ m ∈ t.order ++ t.queue, m.id = id
  := by
  obtain hvisited | ⟨m, hm, hid⟩ := h
  · obtain ⟨m, hm, hid⟩ := List.mem_map.mp (visited_iff.mp hvisited)
    use m, List.mem_append_left _ hm
  · use m, List.mem_append_right _ hm

/-- The known successors of a visited node have been visited or wait. -/
theorem Coverage.exists_mem (h : t.Coverage g) {n : Node} (hn : n ∈ t.order) {b : String}
    (hb : b ∈ g.knownSuccessors n.id) :
  ∃ m ∈ t.order ++ t.queue, m.id = b
  := by
  obtain ⟨hlink, hmem⟩ := Graph.mem_knownSuccessors.mp hb
  have hvisited := visited_iff.mpr (List.mem_map_of_mem (f := (·.id)) hn)
  apply (h.closed n.id b hvisited hlink hmem).exists_mem

/-! ### Runs -/

/-- What a step keeps holds at every point of a run. -/
theorem ComesTo.invariants (h : ComesTo g taken t) :
  t.Coverage g ∧ t.Fed g taken ∧ t.Grounded g
  := by
  induction h with
  | start => exact ⟨coverage_start g, fed_start g, grounded_start g⟩
  | step _ hqueue hstep ih =>
    obtain ⟨hcoverage, hfed, hgrounded⟩ := ih
    exact ⟨hcoverage.step hstep, hfed.step hqueue hstep, hgrounded.step hstep⟩

/-- The nodes that have been taken off the queue and the steps that may be left are together no more
than the roots and the edges. -/
theorem ComesTo.length_add_remaining_le (h : ComesTo g taken t) :
  taken.length + t.remaining g ≤ g.roots.length + g.edges.length
  := by
  induction h with
  | start =>
    rw [List.length_nil, Nat.zero_add]
    apply Nat.add_le_add_left
    apply List.length_filter_le
  | step _ _ hstep ih =>
    have hless := step_decreases hstep
    rw [List.length_append, List.length_singleton]
    omega

/-- A run goes on until no node waits, and its order is that of the finished walk. -/
theorem ComesTo.exists_end (h : ComesTo g taken t) :
  ∃ all last, ComesTo g all last ∧ last.queue = [] ∧ last.order = t.finish g
  := by
  fun_induction t.finish g generalizing taken with
  | case1 t hend => exact ⟨taken, t, h, (finish_of_step_eq_none hend).1, rfl⟩
  | case2 t u hstep ih =>
    obtain ⟨n, queue, hqueue, -⟩ := step_eq_some_iff.mp hstep
    apply ih (h.step hqueue hstep)

end Tour

open Tour in
/-- The queue loop of the execution order, for any nodes and any edges.  At every point of it no two
visited nodes have the same id; the nodes that have been taken off the queue and those that wait come
in turn from the roots and from the known successors of the visited nodes, which are put in once for
each visited node, so that they are no more than the roots and the edges; the roots and the known
successors of each visited node have been visited or wait; and each node that has been visited or
waits is a root or a known successor of a visited node.  The loop runs until its queue is empty, and
then the visited nodes are the execution order. -/
theorem queue_loop (g : Graph) :
  (∀ taken t, ComesTo g taken t →
    (t.order.map (·.id)).Nodup ∧
    ((taken ++ t.queue).map (·.id)).Sublist
      (g.rootIds ++ (t.order.map (·.id)).flatMap g.knownSuccessors) ∧
    taken.length + t.queue.length ≤ g.roots.length + g.edges.length ∧
    (∀ root ∈ g.roots, ∃ m ∈ t.order ++ t.queue, m.id = root.id) ∧
    (∀ n ∈ t.order, ∀ b ∈ g.knownSuccessors n.id, ∃ m ∈ t.order ++ t.queue, m.id = b) ∧
    ∀ n ∈ t.order ++ t.queue, n ∈ g.roots ∨ ∃ m ∈ t.order, n.id ∈ g.knownSuccessors m.id) ∧
  ∃ taken t, ComesTo g taken t ∧ t.queue = [] ∧ t.order = g.executionOrder
  := by
  constructor
  · intro taken t hrun
    obtain ⟨hcoverage, hfed, hgrounded⟩ := hrun.invariants
    refine ⟨hcoverage.distinct, hfed, ?_, fun root hroot => (hcoverage.roots root hroot).exists_mem,
      fun n hn b => hcoverage.exists_mem hn, hgrounded⟩
    have hbound := hrun.length_add_remaining_le
    rw [remaining] at hbound
    omega
  · apply ComesTo.start.exists_end

/-- A graph that no editor makes: its edges lead around in a circle, two of them are the same, one
begins at an unknown node and one leads to an unknown node. -/
def Graph.knotted : Graph :=
  ⟨[⟨"a", inputKind, .origin, .empty⟩, .plain "b" "stemming", .plain "c" "stemming"],
    [⟨"1", "a", "b"⟩, ⟨"2", "b", "c"⟩, ⟨"3", "c", "b"⟩, ⟨"4", "a", "b"⟩, ⟨"5", "x", "c"⟩,
      ⟨"6", "b", "y"⟩]⟩

/-- The loop ends on the knotted graph when all its nodes have been visited, and takes no more nodes
off the queue than there are roots and edges. -/
theorem queue_loop_knotted :
  ∃ taken t, Tour.ComesTo Graph.knotted taken t ∧ t.queue = [] ∧ taken.length ≤ 7 ∧
    t.order.map (·.id) = ["a", "b", "c"]
  := by
  obtain ⟨hpoints, taken, t, hrun, hempty, horder⟩ := queue_loop Graph.knotted
  obtain ⟨-, -, hbound, -⟩ := hpoints taken t hrun
  have hroots : Graph.knotted.roots.length = 1 := by cbv
  have hids : Graph.knotted.executionOrder.map (·.id) = ["a", "b", "c"] := by cbv
  refine ⟨taken, t, hrun, hempty, ?_, ?_⟩
  · rw [hempty, hroots] at hbound
    apply hbound
  · rw [horder, hids]

end TextPipeline
