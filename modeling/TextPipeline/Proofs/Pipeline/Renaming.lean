import Mathlib.Data.Set.Function
import TextPipeline.Proofs.Pipeline.Validity

/-!
# Renamed graphs

Two graphs are the same but for names when the nodes of the one have the renamed ids and the same
kinds as those of the other, in the same order, and the edges have the renamed ends.  Ids of
edges, positions and data do not count.  What a graph tells of a node by its id is told of the
renamed node by the renamed graph, as long as the renaming keeps the id apart from the names in
the graph.  Graphs with the very same names are alike, and refuse the same connections.
-/

namespace TextPipeline

/-- What a walk sees of a node that is renamed by `r`. -/
def Node.key (r : String → String) (n : Node) : String × String := (r n.id, n.kind)

/-- What a walk sees of an edge between nodes that are renamed by `r`. -/
def Edge.ends (r : String → String) (e : Edge) : String × String := (r e.source, r e.target)

namespace Graph

variable {r : String → String} {g g' : Graph}

/-- The names in a graph: the ids of its nodes and the ends of its edges. -/
def names (g : Graph) : Set String :=
  {a | a ∈ g.ids ∨ ∃ e ∈ g.edges, a = e.source ∨ a = e.target}

/-- No name in the graph other than `a` gets the new name of `a`. -/
def KeepsApart (r : String → String) (g : Graph) (a : String) : Prop :=
  ∀ b ∈ g.names, r b = r a → b = a

/-- The second graph is the first one with every name `a` replaced by `r a`. -/
structure Renamed (r : String → String) (g g' : Graph) : Prop where
  nodes : g'.nodes.map (Node.key id) = g.nodes.map (Node.key r)
  edges : g'.edges.map (Edge.ends id) = g.edges.map (Edge.ends r)

/-- The nodes of both graphs have the same ids and kinds, and the edges have the same ends. -/
abbrev Alike : Graph → Graph → Prop :=
  Renamed id

theorem id_mem_names {n : Node} (h : n ∈ g.nodes) :
  n.id ∈ g.names
  := .inl (List.mem_map_of_mem h)

theorem source_mem_names {e : Edge} (h : e ∈ g.edges) :
  e.source ∈ g.names
  := .inr ⟨e, h, .inl rfl⟩

theorem target_mem_names {e : Edge} (h : e ∈ g.edges) :
  e.target ∈ g.names
  := .inr ⟨e, h, .inr rfl⟩

/-- A renaming under which no two names of the graph become one keeps the names apart. -/
theorem keepsApart_of_injOn (hr : g.names.InjOn r) {a : String} (ha : a ∈ g.names) :
  KeepsApart r g a
  := by
  intro b hb hab
  apply hr hb ha hab

/-- Without a renaming all texts are kept apart. -/
theorem keepsApart_id (a : String) :
  KeepsApart id g a
  := by
  intro b _ hab
  apply hab

theorem KeepsApart.eq_iff {a b : String} (ha : KeepsApart r g a) (hb : b ∈ g.names) :
  r b = r a ↔ b = a
  := by
  constructor
  · apply ha b hb
  · rintro rfl
    rfl

/-! ### What is told of a node -/

/-- The first node with a renamed id is the first one of that id, renamed. -/
theorem KeepsApart.find?_eq {a : String} (ha : KeepsApart r g a) {nodes nodes' : List Node}
    (h : nodes'.map (Node.key id) = nodes.map (Node.key r)) (hnodes : ∀ n ∈ nodes, n ∈ g.nodes) :
  (nodes'.find? (·.id = r a)).map (Node.key id) = (nodes.find? (·.id = a)).map (Node.key r)
  := by
  have hview : ∀ nodes : List Node, (nodes.find? (·.id = r a)).map (Node.key id)
      = ((nodes.map (Node.key id)).filter (·.1 = r a)).head? := by
    intro nodes
    rw [List.filter_map, List.head?_map, List.head?_filter]
    rfl
  rw [hview, h, List.filter_map, List.head?_map, ← List.head?_filter]
  congr 2
  apply List.filter_congr
  intro n hn
  simp only [Function.comp_apply, decide_eq_decide]
  apply ha.eq_iff (id_mem_names (hnodes n hn))

/-- The node with a renamed id is the node of that id, renamed. -/
theorem Renamed.node?_eq (h : g.Renamed r g') {a : String} (ha : KeepsApart r g a) :
  (g'.node? (r a)).map (Node.key id) = (g.node? a).map (Node.key r)
  := ha.find?_eq h.nodes fun _ hn => hn

/-- A renamed graph contains the renamed ids. -/
theorem Renamed.contains_eq (h : g.Renamed r g') {a : String} (ha : KeepsApart r g a) :
  g'.contains (r a) = g.contains a
  := by
  have hnode := congrArg Option.isSome (h.node?_eq ha)
  rw [Option.isSome_map, Option.isSome_map] at hnode
  apply hnode

/-- The edges from a renamed node lead to the renamed successors. -/
theorem Renamed.successors_eq (h : g.Renamed r g') {a : String} (ha : KeepsApart r g a) :
  successors g'.edges (r a) = (successors g.edges a).map r
  := by
  have hview : ∀ edges : List Edge,
      successors edges (r a) = ((edges.map (Edge.ends id)).filter (·.1 = r a)).map Prod.snd := by
    intro edges
    rw [List.filter_map, List.map_map]
    rfl
  rw [hview, h.edges, List.filter_map, List.map_map, successors, List.map_map]
  congr 1
  apply List.filter_congr
  intro e he
  simp only [Function.comp_apply, decide_eq_decide]
  apply ha.eq_iff (source_mem_names he)

/-! ### Graphs that are alike -/

/-- Every graph is like itself. -/
theorem Alike.refl (g : Graph) :
  g.Alike g
  := ⟨rfl, rfl⟩

/-- Graphs that are alike contain the same ids. -/
theorem Alike.contains_eq (h : g.Alike g') (a : String) :
  g'.contains a = g.contains a
  := Renamed.contains_eq h (keepsApart_id a)

/-- Graphs that are alike have the same successors of each node. -/
theorem Alike.successors_eq (h : g.Alike g') (a : String) :
  successors g'.edges a = successors g.edges a
  := by
  have hsuccessors := Renamed.successors_eq h (keepsApart_id a)
  rw [List.map_id] at hsuccessors
  apply hsuccessors

end Graph

end TextPipeline
