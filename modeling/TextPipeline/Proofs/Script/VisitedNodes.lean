import Mathlib
import TextPipeline.Proofs.Editing
import TextPipeline.Proofs.Script.ExecutionOrder
import TextPipeline.Script.Compiler

/-!
# The nodes that are visited

A node is met by a walk when it waits or has been visited.  The walk meets the roots before its
first step and the successors of a node when it visits the node, it visits no node twice, and it
meets nothing but what a root reaches.  At the end no node waits, and so the visited nodes are the
roots and all that can be reached from them.
-/

namespace TextPipeline

/-- Some root reaches the node of a given id. -/
def Graph.FromRoot (g : Graph) (id : String) : Prop :=
  ∃ root ∈ g.roots, Reaches g.edges root.id id

namespace Tour

variable {g : Graph} {t u : Tour}

/-- The node of a given id has been visited, or it waits. -/
def Met (t : Tour) (id : String) : Prop :=
  t.visited id = true ∨ ∃ n ∈ t.queue, n.id = id

/-- What holds at every point of a walk: no node is visited twice, what is met comes from a root,
and the roots are met and the successors of each visited node. -/
structure Coverage (g : Graph) (t : Tour) : Prop where
  distinct : (t.order.map (·.id)).Nodup
  sound : ∀ id, t.Met id → g.FromRoot id
  roots : ∀ n ∈ g.roots, t.Met n.id
  closed : ∀ a b, t.visited a = true → Linked g.edges a b → b ∈ g.ids → t.Met b

/-- A node has been visited if its id is in the order. -/
theorem visited_iff {id : String} :
  t.visited id = true ↔ id ∈ t.order.map (·.id)
  := by
  simp [visited]

/-- A visit adds one node to those that have been visited. -/
theorem visited_visit {n : Node} {queue : List Node} {id : String} :
  (t.visit g n queue).visited id = true ↔ t.visited id = true ∨ n.id = id
  := by
  simp [visit, visited]

/-- After a visit those nodes wait that waited besides, and the successors of the visited node
that had not been visited. -/
theorem mem_queue_visit {n m : Node} {queue : List Node} :
  m ∈ (t.visit g n queue).queue
    ↔ m ∈ queue ∨ ∃ b, Linked g.edges n.id b ∧ ¬ (t.visited b = true ∨ n.id = b) ∧
        g.lastNode? b = some m
  := by
  have hvisited : ∀ b, (t.visit g n queue).visited b = true ↔ t.visited b = true ∨ n.id = b :=
    fun b => visited_visit
  simp only [← hvisited]
  simp [visit, visited, mem_successors, and_assoc]

/-- What has been met stays met. -/
theorem Met.step {id : String} (h : t.Met id) (hu : t.step g = some u) :
  u.Met id
  := by
  obtain ⟨n, queue, hqueue, ⟨hold, rfl⟩ | ⟨-, rfl⟩⟩ := step_eq_some_iff.mp hu
  · obtain hvisited | ⟨m, hm, rfl⟩ := h
    · apply Or.inl hvisited
    · rw [hqueue] at hm
      obtain rfl | hm := List.mem_cons.mp hm
      · apply Or.inl hold
      · apply Or.inr ⟨m, hm, rfl⟩
  · obtain hvisited | ⟨m, hm, rfl⟩ := h
    · apply Or.inl (visited_visit.mpr (.inl hvisited))
    · rw [hqueue] at hm
      obtain rfl | hm := List.mem_cons.mp hm
      · apply Or.inl (visited_visit.mpr (.inr rfl))
      · apply Or.inr ⟨m, mem_queue_visit.mpr (.inl hm), rfl⟩

/-- A visit meets all successors of the visited node that the graph has. -/
theorem met_visit {n : Node} {queue : List Node} {b : String} (h : Linked g.edges n.id b)
    (hb : b ∈ g.ids) :
  (t.visit g n queue).Met b
  := by
  by_cases hvisited : t.visited b = true ∨ n.id = b
  · apply Or.inl (visited_visit.mpr hvisited)
  · obtain ⟨m, hm⟩ := Option.isSome_iff_exists.mp (Graph.isSome_lastNode?_iff.mpr hb)
    apply Or.inr ⟨m, mem_queue_visit.mpr (.inr ⟨b, h, hvisited, hm⟩), (Graph.mem_of_lastNode? hm).2⟩

/-- A root or a successor of what comes from a root is all that a step meets. -/
theorem fromRoot_of_met_step {id : String} (h : ∀ id, t.Met id → g.FromRoot id)
    (hu : t.step g = some u) (hid : u.Met id) :
  g.FromRoot id
  := by
  obtain ⟨n, queue, hqueue, ⟨-, rfl⟩ | ⟨-, rfl⟩⟩ := step_eq_some_iff.mp hu
  · apply h
    obtain hvisited | ⟨m, hm, rfl⟩ := hid
    · apply Or.inl hvisited
    · apply Or.inr ⟨m, by simp [hqueue, hm], rfl⟩
  · have hn : t.Met n.id := Or.inr ⟨n, by simp [hqueue], rfl⟩
    obtain hvisited | ⟨m, hm, rfl⟩ := hid
    · obtain hvisited | rfl := visited_visit.mp hvisited
      · apply h _ (.inl hvisited)
      · apply h _ hn
    · obtain hm | ⟨b, hlink, -, hb⟩ := mem_queue_visit.mp hm
      · apply h _ (.inr ⟨m, by simp [hqueue, hm], rfl⟩)
      · obtain ⟨root, hroot, hreach⟩ := h _ hn
        rw [(Graph.mem_of_lastNode? hb).2]
        use root, hroot
        apply Relation.ReflTransGen.tail hreach hlink

/-! ### The invariant along a walk -/

/-- Before the first step the roots are met and nothing else. -/
theorem coverage_start (g : Graph) :
  (start g).Coverage g
  := by
  constructor
  · apply List.nodup_nil
  · rintro id (hvisited | ⟨root, hroot, rfl⟩)
    · cases hvisited
    · use root, hroot
  · intro n hn
    apply Or.inr ⟨n, hn, rfl⟩
  · intro a b hvisited
    cases hvisited

/-- A step meets what the node it visits leads to. -/
theorem Coverage.step (h : t.Coverage g) (hu : t.step g = some u) :
  u.Coverage g
  := by
  obtain ⟨hdistinct, hsound, hroots, hclosed⟩ := h
  have hsound' : ∀ id, u.Met id → g.FromRoot id := fun id => fromRoot_of_met_step hsound hu
  have hmet := fun id (hid : t.Met id) => hid.step hu
  obtain ⟨n, queue, hqueue, ⟨-, rfl⟩ | ⟨hnew, rfl⟩⟩ := step_eq_some_iff.mp hu
  · constructor
    · apply hdistinct
    · apply hsound'
    · intro root hroot
      apply hmet _ (hroots root hroot)
    · intro a b ha hlink hb
      apply hmet _ (hclosed a b ha hlink hb)
  · constructor
    · rw [visit, List.map_append, List.map_singleton, ← List.concat_eq_append]
      apply hdistinct.concat
      rw [← visited_iff, hnew]
      decide
    · apply hsound'
    · intro root hroot
      apply hmet _ (hroots root hroot)
    · intro a b ha hlink hb
      obtain ha | rfl := visited_visit.mp ha
      · apply hmet _ (hclosed a b ha hlink hb)
      · apply met_visit hlink hb

end Tour

namespace Graph

variable {g : Graph}

/-- All nodes that are visited are nodes of the graph. -/
theorem mem_nodes_of_mem_executionOrder {n : Node} (h : n ∈ g.executionOrder) :
  n ∈ g.nodes
  := by
  obtain ⟨t, hwithin, -, horder⟩ := Tour.finish_induction
    (fun _ _ ht hu => Tour.Within.step ht hu) _ (Tour.within_start g)
  apply hwithin.order
  rw [horder]
  apply h

/-- A root of a valid graph is an input node that no edge leads to. -/
theorem Valid.mem_roots_iff (h : g.Valid) {n : Node} :
  n ∈ g.roots ↔ n ∈ g.nodes ∧ n.kind = inputKind ∧ ∀ e ∈ g.edges, e.target ≠ n.id
  := by
  rw [roots, List.mem_filter, h.isRoot_iff]

/-- The edges of a valid graph lead to nodes of the graph only. -/
theorem Valid.mem_ids_of_linked (h : g.Valid) {a b : String} (hab : Linked g.edges a b) :
  b ∈ g.ids
  := by
  obtain ⟨e, he, -, rfl⟩ := hab
  apply (h.attached e he).2

/-- The nodes of a valid graph that are visited are those that come from a root, and none of them
is visited twice. -/
theorem Valid.mem_executionOrder_iff (h : g.Valid) :
  (g.executionOrder.map (·.id)).Nodup ∧
    ∀ id, id ∈ g.executionOrder.map (·.id) ↔ g.FromRoot id
  := by
  obtain ⟨t, hcoverage, hempty, horder⟩ := Tour.finish_induction
    (fun _ _ ht hu => Tour.Coverage.step ht hu) _ (Tour.coverage_start g)
  have hmet : ∀ id, t.Met id ↔ id ∈ t.order.map (·.id) := by
    intro id
    rw [Tour.Met, hempty, Tour.visited_iff]
    simp
  rw [executionOrder, ← horder]
  use hcoverage.distinct
  intro id
  constructor
  · intro hid
    apply hcoverage.sound id ((hmet id).mpr hid)
  · rintro ⟨root, hroot, hreach⟩
    induction hreach with
    | refl => apply (hmet _).mp (hcoverage.roots root hroot)
    | tail _ hlink ih =>
      apply (hmet _).mp
      apply hcoverage.closed _ _ (Tour.visited_iff.mpr ih) hlink (h.mem_ids_of_linked hlink)

end Graph

namespace Compiler

/-- In the order of a script of a graph that an editor has made no id comes twice.  The ids in it
are ids of nodes, and they are those that a path leads to, with any number of edges or none, from
an input node that no edge leads to. -/
theorem mem_order_iff (c : Compiler) {g : Graph} (h : g.Reachable) :
  (c.compile g).order.Nodup ∧
  (∀ id ∈ (c.compile g).order, ∃ n ∈ g.nodes, n.id = id) ∧
  ∀ id, id ∈ (c.compile g).order
    ↔ ∃ root ∈ g.nodes, (root.kind = "textInput" ∧ ∀ e ∈ g.edges, e.target ≠ root.id) ∧
        Reaches g.edges root.id id
  := by
  have horder : (c.compile g).order = g.executionOrder.map (·.id) := rfl
  obtain ⟨hdistinct, hvisited⟩ := h.valid.mem_executionOrder_iff
  rw [horder]
  refine ⟨hdistinct, ?_, ?_⟩
  · intro id hid
    obtain ⟨n, hn, rfl⟩ := List.mem_map.mp hid
    use n, Graph.mem_nodes_of_mem_executionOrder hn
  · intro id
    rw [hvisited, Graph.FromRoot]
    simp only [h.valid.mem_roots_iff, and_assoc]
    rfl

/-- Two inputs that lead to a common node, which another node leads to as well. -/
def confluence : Document :=
  ⟨[⟨"a", inputKind, .origin, .empty⟩, ⟨"b", inputKind, .origin, .empty⟩, .plain "c" "stemming",
      .plain "d" "stemming", .plain "e" "stemming"],
    [⟨"1", "a", "c"⟩, ⟨"2", "b", "c"⟩, ⟨"3", "c", "d"⟩, ⟨"4", "a", "d"⟩, ⟨"5", "e", "c"⟩]⟩

/-- The node at the end of all paths is visited once, and the node that only leads into them is
not visited. -/
theorem mem_order_confluence :
  confluence.graph.Reachable ∧ (standard.compile confluence.graph).order.Nodup ∧
    "d" ∈ (standard.compile confluence.graph).order ∧
    "e" ∉ (standard.compile confluence.graph).order
  := by
  have hreach : confluence.graph.Reachable :=
    Graph.reachable_of_ofDocument (d := confluence) (by cbv)
  obtain ⟨hdistinct, -, hmem⟩ := standard.mem_order_iff hreach
  refine ⟨hreach, hdistinct, ?_, ?_⟩
  · apply (hmem "d").mpr
    refine ⟨⟨"a", inputKind, .origin, .empty⟩, by decide, by decide, ?_⟩
    apply Relation.ReflTransGen.single
    exact ⟨⟨"4", "a", "d"⟩, by decide, rfl, rfl⟩
  · intro he
    obtain ⟨root, hroot, ⟨hkind, -⟩, hpath⟩ := (hmem "e").mp he
    obtain hend | ⟨_, -, e, he, -, htarget⟩ := Relation.ReflTransGen.cases_tail hpath
    · have hnone : ∀ n ∈ confluence.graph.nodes, n.id = "e" → n.kind ≠ "textInput" := by decide
      apply hnone root hroot hend.symm hkind
    · have hnone : ∀ e ∈ confluence.graph.edges, e.target ≠ "e" := by decide
      apply hnone e he htarget

end Compiler

end TextPipeline
