import TextPipeline.Proofs.Script.FirstOccurrences
import TextPipeline.Proofs.Script.VisitedNodes

/-!
# Visiting in turn

A node may wait several times, and where it waits first decides when it is visited.  At every point
of a walk the visited nodes and behind them the waiting ones come first in the order in which they
have been offered: the roots, and then the successors of each visited node in turn.  At the end
no node waits, and so the order tells itself which nodes are offered and where each comes first.
-/

namespace TextPipeline

open Compiler (firstOccurrences)

namespace Graph

variable {g : Graph}

/-- The ids of the roots in their order. -/
def rootIds (g : Graph) : List String :=
  g.roots.map (·.id)

/-- The ids of the visited nodes in the execution order. -/
def visitedIds (g : Graph) : List String :=
  g.executionOrder.map (·.id)

/-- The successors of a node that the graph has, in the order of the edges. -/
def knownSuccessors (g : Graph) (id : String) : List String :=
  (successors g.edges id).filter g.contains

/-- The known successors of a node are the nodes of the graph that it is linked to. -/
theorem mem_knownSuccessors {a b : String} :
  b ∈ g.knownSuccessors a ↔ Linked g.edges a b ∧ b ∈ g.ids
  := by
  rw [knownSuccessors, List.mem_filter, mem_successors, contains_iff]

/-- The nodes that are found by some ids have those ids that the graph has. -/
theorem map_id_filterMap_lastNode? (g : Graph) (ids : List String) :
  (ids.filterMap g.lastNode?).map (·.id) = ids.filter g.contains
  := by
  induction ids with
  | nil => rfl
  | cons id ids ih =>
    rw [List.filterMap_cons, List.filter_cons, ← isSome_lastNode?]
    cases hnode : g.lastNode? id with
    | none => simpa using ih
    | some n => simpa [(mem_of_lastNode? hnode).2] using ih

end Graph

/-! ### The walk in turn -/

namespace Tour

variable {g : Graph} {t u : Tour}

/-- The ids that have been put into the queue and those that were not since their nodes had been
visited: the roots, and then the successors of each visited node. -/
def offered (g : Graph) (t : Tour) : List String :=
  g.rootIds ++ (t.order.map (·.id)).flatMap g.knownSuccessors

/-- The visited nodes and behind them the waiting ones come in the order in which they were first
offered. -/
def InTurn (g : Graph) (t : Tour) : Prop :=
  firstOccurrences ((t.order ++ t.queue).map (·.id)) = firstOccurrences (t.offered g)

/-- A visit puts those successors into the queue that have not been visited. -/
theorem map_id_queue_visit (g : Graph) (t : Tour) (n : Node) (queue : List Node) :
  (t.visit g n queue).queue.map (·.id)
    = queue.map (·.id) ++
        (g.knownSuccessors n.id).filter fun id => !(t.visit g n queue).visited id
  := by
  rw [visit, List.map_append, Graph.map_id_filterMap_lastNode?, Graph.knownSuccessors,
    List.filter_filter, List.filter_filter]
  simp only [Bool.and_comm]
  rfl

/-- A visit offers the successors of the visited node. -/
theorem offered_visit (g : Graph) (t : Tour) (n : Node) (queue : List Node) :
  (t.visit g n queue).offered g = t.offered g ++ g.knownSuccessors n.id
  := by
  simp [offered, visit, List.flatMap_append]

/-- Before the first step the roots wait, and nothing else has been offered. -/
theorem inTurn_start (g : Graph) :
  (start g).InTurn g
  := by
  simp [InTurn, offered, start, Graph.rootIds]

/-- Every step goes in turn. -/
theorem InTurn.step (h : t.InTurn g) (hu : t.step g = some u) :
  u.InTurn g
  := by
  obtain ⟨n, queue, hqueue, hcase⟩ := step_eq_some_iff.mp hu
  have hids : (t.order ++ t.queue).map (·.id)
      = t.order.map (·.id) ++ n.id :: queue.map (·.id) := by
    rw [hqueue, List.map_append, List.map_cons]
  rw [InTurn, hids] at h
  obtain ⟨hold, rfl⟩ | ⟨-, rfl⟩ := hcase
  · rw [InTurn, List.map_append,
      ← Compiler.firstOccurrences_append_cons (visited_iff.mp hold), h]
    rfl
  · have hnow : (t.visit g n queue).order.map (·.id) = t.order.map (·.id) ++ [n.id] := by
      simp [visit]
    have hvisited : ∀ id ∈ g.knownSuccessors n.id,
        (!(t.visit g n queue).visited id) = false →
          id ∈ t.order.map (·.id) ++ n.id :: queue.map (·.id) := by
      intro id _ hid
      rw [Bool.not_eq_false', visited_iff, hnow] at hid
      rw [List.append_cons]
      apply List.mem_append_left _ hid
    rw [InTurn, offered_visit, ← Compiler.firstOccurrences_append_congr h,
      ← Compiler.firstOccurrences_append_filter hvisited, List.map_append, hnow,
      map_id_queue_visit]
    simp

end Tour

namespace Graph

variable {g : Graph}

/-- The order of any graph is the list of the roots, and behind them the successors of each of its
own members, without the repetitions. -/
theorem visitedIds_eq (g : Graph) :
  g.visitedIds = firstOccurrences (g.rootIds ++ g.visitedIds.flatMap g.knownSuccessors)
  := by
  obtain ⟨t, ⟨hcoverage, hturn⟩, hempty, horder⟩ :=
    Tour.finish_induction (motive := fun t => t.Coverage g ∧ t.InTurn g)
      (fun _ _ ht hu => ⟨ht.1.step hu, ht.2.step hu⟩) _ ⟨Tour.coverage_start g, Tour.inTurn_start g⟩
  rw [Tour.InTurn, hempty, List.append_nil,
    Compiler.firstOccurrences_of_nodup hcoverage.distinct] at hturn
  rw [visitedIds, executionOrder, ← horder]
  apply hturn

/-- All successors are known in a valid graph. -/
theorem Valid.knownSuccessors_eq (h : g.Valid) :
  g.knownSuccessors = successors g.edges
  := by
  funext id
  apply List.filter_eq_self.mpr
  intro next hnext
  apply contains_iff.mpr (h.mem_ids_of_linked (mem_successors.mp hnext))

/-- The roots of a valid graph have distinct ids. -/
theorem Valid.nodup_rootIds (h : g.Valid) :
  g.rootIds.Nodup
  := h.distinct.sublist (List.filter_sublist.map _)

/-- The order of a valid graph is the list of the roots, and behind them the successors of each of
its own members, without the repetitions. -/
theorem Valid.visitedIds_eq (h : g.Valid) :
  g.visitedIds = firstOccurrences (g.rootIds ++ g.visitedIds.flatMap (successors g.edges))
  := by
  rw [← h.knownSuccessors_eq]
  apply Graph.visitedIds_eq

/-- The roots come first. -/
theorem Valid.prefix_visitedIds (h : g.Valid) :
  g.rootIds <+: g.visitedIds
  := by
  rw [h.visitedIds_eq, Compiler.firstOccurrences_append,
    Compiler.firstOccurrences_of_nodup h.nodup_rootIds]
  apply List.prefix_append

end Graph

end TextPipeline
