import TextPipeline.Pipeline.Graph
import TextPipeline.Proofs.Pipeline.CycleSearch

/-!
# Valid graphs

A graph is valid when its nodes have distinct ids, its edges go between nodes of the graph, and no
edge is a loop, repeats another one or lies on a cycle.  In a valid graph an edge is accepted
exactly when the graph stays valid with it, and every edit gives a valid graph again.
-/

namespace TextPipeline

open Relation

/-- What can be said about one more edge from `source` to `target`: the first reason to refuse it,
or that there is none. -/
inductive Verdict (edges : List Edge) (source target : String) : Option Rejection → Prop where
  | selfLoop (h : source = target) : Verdict edges source target (some .selfLoop)
  | duplicate (hends : source ≠ target) (h : Linked edges source target) :
      Verdict edges source target (some .duplicate)
  | cycle (hends : source ≠ target) (hnew : ¬ Linked edges source target)
      (h : closesCycle edges source target = true) : Verdict edges source target (some .cycle)
  | accepted (hends : source ≠ target) (hnew : ¬ Linked edges source target)
      (h : closesCycle edges source target = false) : Verdict edges source target none

/-- The check says what can be said. -/
theorem checkConnection_eq_iff {edges : List Edge} {source target : String}
    {verdict : Option Rejection} :
  checkConnection edges source target = verdict ↔ Verdict edges source target verdict
  := by
  rw [checkConnection]
  constructor
  · rintro rfl
    split
    · next hends => exact .selfLoop hends
    · next hends =>
      split
      · next hlink => exact .duplicate hends (hasEdge_iff.mp hlink)
      · next hnew =>
        rw [hasEdge_iff] at hnew
        split
        · next hcloses => exact .cycle hends hnew hcloses
        · next hopen => exact .accepted hends hnew (eq_false_of_ne_true hopen)
  · intro h
    cases h with
    | selfLoop h => rw [if_pos h]
    | duplicate hends h => rw [if_neg hends, if_pos (hasEdge_iff.mpr h)]
    | cycle hends hnew h => rw [if_neg hends, if_neg (mt hasEdge_iff.mp hnew), if_pos h]
    | accepted hends hnew h =>
      rw [if_neg hends, if_neg (mt hasEdge_iff.mp hnew), h]
      rfl

namespace Graph

variable {g g' : Graph}

/-- The ids of the nodes in their order. -/
def ids (g : Graph) : List String :=
  g.nodes.map (·.id)

/-- The nodes have distinct ids, and the edges go between nodes and are neither loops nor repeated
nor on a cycle. -/
structure Valid (g : Graph) : Prop where
  distinct : g.ids.Nodup
  attached : ∀ e ∈ g.edges, e.source ∈ g.ids ∧ e.target ∈ g.ids
  loopless : ∀ e ∈ g.edges, e.source ≠ e.target
  simple : (g.edges.map fun e => (e.source, e.target)).Nodup
  acyclic : Acyclic g.edges

/-- A graph contains the ids of its nodes. -/
theorem contains_iff {id : String} :
  g.contains id = true ↔ id ∈ g.ids
  := by
  simp [contains, node?, ids]

/-- The pairs of linked nodes are the ends of the edges. -/
theorem mem_ends_iff {edges : List Edge} {a b : String} :
  (a, b) ∈ edges.map (fun e => (e.source, e.target)) ↔ Linked edges a b
  := by
  simp [Linked]

/-! ### One more edge -/

/-- A node that the graph does not have is told of before anything else. -/
theorem refusal?_of_source {source : String} (h : source ∉ g.ids) (target : String) :
  g.refusal? source target = some (.nodeNotFound source)
  := by
  rw [← contains_iff, Bool.not_eq_true] at h
  simp [refusal?, h]

/-- The target is looked at after the source. -/
theorem refusal?_of_target {source target : String} (hsource : source ∈ g.ids)
    (h : target ∉ g.ids) :
  g.refusal? source target = some (.nodeNotFound target)
  := by
  rw [← contains_iff] at hsource
  rw [← contains_iff, Bool.not_eq_true] at h
  simp [refusal?, hsource, h]

/-- Between two nodes of the graph the edges decide. -/
theorem refusal?_of_mem {source target : String} (hsource : source ∈ g.ids)
    (htarget : target ∈ g.ids) :
  g.refusal? source target
    = (checkConnection g.edges source target).map (.rejected source target)
  := by
  rw [← contains_iff] at hsource htarget
  simp [refusal?, hsource, htarget]

/-- An edge may be added to acyclic edges exactly when its ends are two nodes that no edge links
and no path leads back from its target to its source. -/
theorem refusal?_eq_none_iff (h : Acyclic g.edges) {source target : String} :
  g.refusal? source target = none
    ↔ source ∈ g.ids ∧ target ∈ g.ids ∧ source ≠ target ∧ ¬ Linked g.edges source target ∧
        ¬ Reaches g.edges target source
  := by
  by_cases hsource : source ∈ g.ids
  · by_cases htarget : target ∈ g.ids
    · rw [refusal?_of_mem hsource htarget, Option.map_eq_none_iff, checkConnection_eq_iff,
        ← h.closesCycle_iff, Bool.not_eq_true]
      constructor
      · intro hverdict
        cases hverdict with
        | accepted hends hnew hopen => use hsource, htarget, hends, hnew
      · rintro ⟨-, -, hends, hnew, hopen⟩
        apply Verdict.accepted hends hnew hopen
    · simp [refusal?_of_target hsource htarget, htarget]
  · simp [refusal?_of_source hsource, hsource]

/-- A graph with one more edge is valid exactly when it was valid before, the ends of the edge are
two nodes that no edge links, and no path leads back from its target to its source. -/
theorem valid_append_edge_iff {nodes : List Node} {edges : List Edge} {e : Edge} :
  (⟨nodes, edges ++ [e]⟩ : Graph).Valid
    ↔ (⟨nodes, edges⟩ : Graph).Valid ∧ e.source ∈ nodes.map (·.id) ∧ e.target ∈ nodes.map (·.id) ∧
        e.source ≠ e.target ∧ ¬ Linked edges e.source e.target ∧
        ¬ Reaches edges e.target e.source
  := by
  constructor
  · rintro ⟨hdistinct, hattached, hloopless, hsimple, hacyclic⟩
    obtain ⟨hacyclic, hback⟩ := acyclic_append_singleton.mp hacyclic
    have hlast : e ∈ edges ++ [e] := List.mem_append_right _ List.mem_cons_self
    rw [List.map_append, List.nodup_append] at hsimple
    obtain ⟨hsimple, -, hnew⟩ := hsimple
    refine ⟨⟨hdistinct, ?_, ?_, hsimple, hacyclic⟩, (hattached e hlast).1, (hattached e hlast).2,
      hloopless e hlast, ?_, hback⟩
    · intro e' he'
      apply hattached e' (List.mem_append_left _ he')
    · intro e' he'
      apply hloopless e' (List.mem_append_left _ he')
    · intro hlink
      apply hnew _ (mem_ends_iff.mpr hlink) _ List.mem_cons_self rfl
  · rintro ⟨⟨hdistinct, hattached, hloopless, hsimple, hacyclic⟩, hsource, htarget, hends, hnew,
      hback⟩
    constructor
    · apply hdistinct
    · intro e' he'
      obtain he' | he' := List.mem_append.mp he'
      · apply hattached e' he'
      · rw [List.mem_singleton.mp he']
        apply And.intro hsource htarget
    · intro e' he'
      obtain he' | he' := List.mem_append.mp he'
      · apply hloopless e' he'
      · rw [List.mem_singleton.mp he']
        apply hends
    · rw [List.map_append, List.nodup_append]
      refine ⟨hsimple, List.nodup_singleton _, ?_⟩
      rintro ⟨a, b⟩ hab _ he rfl
      rw [List.map_singleton, List.mem_singleton, Prod.mk.injEq] at he
      obtain ⟨rfl, rfl⟩ := he
      apply hnew (mem_ends_iff.mp hab)
    · apply acyclic_append_singleton.mpr ⟨hacyclic, hback⟩

/-- A valid graph accepts an edge exactly when it stays valid with it. -/
theorem Valid.refusal?_eq_none_iff (h : g.Valid) {e : Edge} :
  g.refusal? e.source e.target = none ↔ (⟨g.nodes, g.edges ++ [e]⟩ : Graph).Valid
  := by
  rw [Graph.refusal?_eq_none_iff h.acyclic, valid_append_edge_iff]
  simp only [h, true_and]
  rfl

/-- An edge is added at the end when nothing stands against it, and not otherwise. -/
theorem addEdge_eq_ok_iff {e : Edge} :
  g.addEdge e = .ok g'
    ↔ g.refusal? e.source e.target = none ∧ g' = ⟨g.nodes, g.edges ++ [e]⟩
  := by
  rw [addEdge]
  split
  · simp_all
  · next hnone =>
    rw [hnone, Except.ok.injEq, eq_comm]
    simp

/-- An edge is refused with the error that stands against it. -/
theorem addEdge_eq_error_iff {e : Edge} {cause : GraphError} :
  g.addEdge e = .error cause ↔ g.refusal? e.source e.target = some cause
  := by
  rw [addEdge]
  split <;> simp_all

/-- A new edge gets the next free id. -/
theorem connect_eq_ok_iff {source target id : String} :
  g.connect source target = .ok (id, g')
    ↔ id = nextEdgeId g.edges ∧ g.addEdge ⟨id, source, target⟩ = .ok g'
  := by
  rw [connect]
  cases h : g.addEdge ⟨nextEdgeId g.edges, source, target⟩ with
  | error cause =>
    simp only [Except.map, reduceCtorEq, false_iff, not_and]
    rintro rfl
    simp [h]
  | ok g'' =>
    simp only [Except.map, Except.ok.injEq, Prod.mk.injEq]
    constructor
    · rintro ⟨rfl, rfl⟩
      apply And.intro rfl h
    · rintro ⟨rfl, h'⟩
      rw [h] at h'
      apply And.intro rfl (Except.ok.inj h')

/-- Two nodes are connected by an edge at the end under the next free id when nothing stands against
it, and not otherwise. -/
theorem connect_eq_ok_iff_refusal? {source target id : String} :
  g.connect source target = .ok (id, g')
    ↔ g.refusal? source target = none ∧ id = nextEdgeId g.edges ∧
      g' = ⟨g.nodes, g.edges ++ [⟨id, source, target⟩]⟩
  := by
  rw [connect_eq_ok_iff, addEdge_eq_ok_iff]
  tauto

/-- Adding an edge keeps a graph valid. -/
theorem Valid.addEdge (h : g.Valid) {e : Edge} (hadd : g.addEdge e = .ok g') :
  g'.Valid
  := by
  obtain ⟨hnone, rfl⟩ := addEdge_eq_ok_iff.mp hadd
  apply h.refusal?_eq_none_iff.mp hnone

/-- Connecting two nodes keeps a graph valid. -/
theorem Valid.connect (h : g.Valid) {source target id : String}
    (hconnect : g.connect source target = .ok (id, g')) :
  g'.Valid
  := by
  apply h.addEdge (connect_eq_ok_iff.mp hconnect).2

/-! ### Fewer edges -/

/-- A valid graph stays valid without some of its edges. -/
theorem Valid.of_sublist (h : g.Valid) {edges : List Edge} (hsub : edges.Sublist g.edges) :
  (⟨g.nodes, edges⟩ : Graph).Valid
  := by
  constructor
  · apply h.distinct
  · intro e he
    apply h.attached e (hsub.subset he)
  · intro e he
    apply h.loopless e (hsub.subset he)
  · apply h.simple.sublist (hsub.map _)
  · apply h.acyclic.mono hsub.subset

/-- A valid graph stays valid with its edges in another order. -/
theorem Valid.of_perm (h : g.Valid) {edges : List Edge} (hperm : edges.Perm g.edges) :
  (⟨g.nodes, edges⟩ : Graph).Valid
  := by
  constructor
  · apply h.distinct
  · intro e he
    apply h.attached e (hperm.subset he)
  · intro e he
    apply h.loopless e (hperm.subset he)
  · apply (hperm.map _).nodup_iff.mpr h.simple
  · apply h.acyclic.mono hperm.subset

/-- When the first member that satisfies `p` is taken out of a list, those in front of it stay, none
of which satisfies `p`, and those behind it. -/
theorem exists_eraseP_of_find? {α : Type} {p : α → Bool} {xs : List α} {x : α}
    (h : xs.find? p = some x) :
  ∃ front back, xs = front ++ x :: back ∧ p x = true ∧ (∀ y ∈ front, ¬ p y = true) ∧
    xs.eraseP p = front ++ back
  := by
  obtain ⟨hx, front, back, rfl, hfront⟩ := List.find?_eq_some_iff_append.mp h
  have hfront : ∀ y ∈ front, ¬ p y = true := by
    simpa using hfront
  use front, back, rfl, hx, hfront
  rw [List.eraseP_append_right _ hfront, List.eraseP_cons_of_pos hx]

/-- The first edge of a given id is removed, if there is one. -/
theorem removeEdge_eq_some_iff {id : String} {e : Edge} :
  g.removeEdge id = some (e, g')
    ↔ g.edges.find? (·.id = id) = some e ∧ g' = ⟨g.nodes, g.edges.eraseP (·.id = id)⟩
  := by
  simp only [removeEdge, Option.map_eq_some_iff, Prod.mk.injEq]
  constructor
  · rintro ⟨_, hfind, rfl, rfl⟩
    exact ⟨hfind, rfl⟩
  · rintro ⟨hfind, rfl⟩
    exact ⟨e, hfind, rfl, rfl⟩

/-- What is left when an edge is removed are the edges in front of it, none of which has its id, and
those behind it. -/
theorem exists_of_removeEdge {id : String} {e : Edge} (h : g.removeEdge id = some (e, g')) :
  ∃ front back, g.edges = front ++ e :: back ∧ e.id = id ∧ (∀ e' ∈ front, e'.id ≠ id) ∧
    g' = ⟨g.nodes, front ++ back⟩
  := by
  obtain ⟨hfind, rfl⟩ := removeEdge_eq_some_iff.mp h
  obtain ⟨front, back, hedges, hid, hfront, hrest⟩ := exists_eraseP_of_find? hfind
  refine ⟨front, back, hedges, of_decide_eq_true hid, ?_, by rw [hrest]⟩
  simpa using hfront

/-- Removing an edge keeps a graph valid. -/
theorem Valid.removeEdge (h : g.Valid) {id : String} {e : Edge}
    (hremove : g.removeEdge id = some (e, g')) :
  g'.Valid
  := by
  obtain ⟨-, rfl⟩ := removeEdge_eq_some_iff.mp hremove
  apply h.of_sublist
  apply List.eraseP_sublist

/-! ### Nodes -/

/-- A node is added at the end when its id is not taken, and not otherwise. -/
theorem addNode_eq_ok_iff {n : Node} :
  g.addNode n = .ok g' ↔ n.id ∉ g.ids ∧ g' = ⟨g.nodes ++ [n], g.edges⟩
  := by
  rw [addNode, ← contains_iff]
  split
  · next htaken => simp [htaken]
  · next hfresh =>
    rw [Except.ok.injEq, eq_comm]
    simp [hfresh]

/-- A valid graph stays valid with one more node whose id is not taken. -/
theorem Valid.append_node (h : g.Valid) {n : Node} (hfresh : n.id ∉ g.ids) :
  (⟨g.nodes ++ [n], g.edges⟩ : Graph).Valid
  := by
  have hids : (⟨g.nodes ++ [n], g.edges⟩ : Graph).ids = g.ids ++ [n.id] := by
    simp [ids]
  constructor
  · rw [hids, ← List.concat_eq_append]
    apply h.distinct.concat hfresh
  · intro e he
    obtain ⟨hsource, htarget⟩ := h.attached e he
    rw [hids]
    apply And.intro
    · apply List.mem_append_left _ hsource
    · apply List.mem_append_left _ htarget
  · apply h.loopless
  · apply h.simple
  · apply h.acyclic

/-- Adding a node keeps a graph valid. -/
theorem Valid.addNode (h : g.Valid) {n : Node} (hadd : g.addNode n = .ok g') :
  g'.Valid
  := by
  obtain ⟨hfresh, rfl⟩ := addNode_eq_ok_iff.mp hadd
  apply h.append_node hfresh

/-- Adding a node for an operation keeps a graph valid if its id is fresh. -/
theorem Valid.addOperation (h : g.Valid) {id : String} {kind : OperationKind}
    {position : Position} (hfresh : g.contains id = false) :
  (g.addOperation id kind position).Valid
  := by
  apply h.append_node
  rw [← contains_iff, operationNode, hfresh]
  simp

/-- The nodes without the one of a given id have the other ids. -/
theorem mem_map_eraseP {nodes : List Node} {id other : String} (h : other ≠ id)
    (hother : other ∈ nodes.map (·.id)) :
  other ∈ (nodes.eraseP (·.id = id)).map (·.id)
  := by
  obtain ⟨n, hn, rfl⟩ := List.mem_map.mp hother
  apply List.mem_map_of_mem
  apply (List.mem_eraseP_of_neg _).mpr hn
  simpa using h

/-- The node of a given id is removed with the edges that touch it, if there is one. -/
theorem removeNode_eq_some_iff {id : String} {n : Node} :
  g.removeNode id = some (n, g')
    ↔ g.node? id = some n ∧
      g' = ⟨g.nodes.eraseP (·.id = id), g.edges.filter fun e => e.source ≠ id ∧ e.target ≠ id⟩
  := by
  simp only [removeNode, Option.map_eq_some_iff, Prod.mk.injEq]
  constructor
  · rintro ⟨_, hfind, rfl, rfl⟩
    exact ⟨hfind, rfl⟩
  · rintro ⟨hfind, rfl⟩
    exact ⟨n, hfind, rfl, rfl⟩

/-- What is left when a node is removed are the nodes in front of it and behind it, and the edges
that do not touch it. -/
theorem exists_of_removeNode {id : String} {n : Node} (h : g.removeNode id = some (n, g')) :
  ∃ front back, g.nodes = front ++ n :: back ∧ n.id = id ∧
    g' = ⟨front ++ back, g.edges.filter fun e => e.source ≠ id ∧ e.target ≠ id⟩
  := by
  obtain ⟨hfind, rfl⟩ := removeNode_eq_some_iff.mp h
  obtain ⟨front, back, hnodes, hid, -, hrest⟩ := exists_eraseP_of_find? hfind
  use front, back, hnodes, of_decide_eq_true hid
  rw [hrest]

/-- Removing a node and the edges that touch it keeps a graph valid. -/
theorem Valid.removeNode (h : g.Valid) {id : String} {n : Node}
    (hremove : g.removeNode id = some (n, g')) :
  g'.Valid
  := by
  obtain ⟨-, rfl⟩ := removeNode_eq_some_iff.mp hremove
  obtain ⟨hdistinct, hattached, hloopless, hsimple, hacyclic⟩ := h.of_sublist
    (List.filter_sublist (p := fun e => decide (e.source ≠ id ∧ e.target ≠ id)))
  constructor
  · apply List.Nodup.sublist _ hdistinct
    apply List.Sublist.map
    apply List.eraseP_sublist
  · intro e he
    have hends := (List.mem_filter.mp he).2
    rw [decide_eq_true_eq] at hends
    obtain ⟨hsource, htarget⟩ := hattached e he
    constructor
    · apply mem_map_eraseP hends.1 hsource
    · apply mem_map_eraseP hends.2 htarget
  · apply hloopless
  · apply hsimple
  · apply hacyclic

/-- A change of the first member of a list that satisfies `p` keeps what `f` does not see. -/
theorem map_updateFirst {α β : Type} {p : α → Bool} {f : α → α} {view : α → β}
    (h : ∀ a, view (f a) = view a) (as : List α) :
  (updateFirst p f as).map view = as.map view
  := by
  induction as with
  | nil => rfl
  | cons a as ih =>
    rw [updateFirst]
    split
    · rw [List.map_cons, List.map_cons, h]
    · rw [List.map_cons, List.map_cons, ih]

/-- The data of the first node of a given id are changed, if there is one. -/
theorem updateNode_eq_ok_iff {id field value : String} :
  g.updateNode id field value = .ok g'
    ↔ id ∈ g.ids ∧ g' = ⟨updateFirst (·.id = id)
        (fun n => { n with data := n.data.setField field value }) g.nodes, g.edges⟩
  := by
  rw [updateNode, ← contains_iff]
  split
  · next hcontains =>
    rw [Except.ok.injEq, eq_comm]
    simp [hcontains]
  · next hmissing => simp [hmissing]

/-- A change of the data of a node leaves the ids. -/
theorem ids_of_updateNode {id field value : String} (h : g.updateNode id field value = .ok g') :
  g'.ids = g.ids
  := by
  obtain ⟨-, rfl⟩ := updateNode_eq_ok_iff.mp h
  rw [ids, map_updateFirst]
  · rfl
  · intro n
    rfl

/-- Changing the data of a node keeps a graph valid. -/
theorem Valid.updateNode (h : g.Valid) {id field value : String}
    (hupdate : g.updateNode id field value = .ok g') :
  g'.Valid
  := by
  have hids := ids_of_updateNode hupdate
  obtain ⟨-, rfl⟩ := updateNode_eq_ok_iff.mp hupdate
  constructor
  · rw [hids]
    apply h.distinct
  · rw [hids]
    apply h.attached
  · apply h.loopless
  · apply h.simple
  · apply h.acyclic

/-! ### Where graphs begin -/

/-- A graph without edges is valid if its nodes have distinct ids. -/
theorem valid_of_nodes {nodes : List Node} (h : (nodes.map (·.id)).Nodup) :
  (⟨nodes, []⟩ : Graph).Valid
  := by
  constructor
  · apply h
  · simp
  · simp
  · simp
  · apply acyclic_nil

/-- The graph without any node is valid. -/
theorem valid_empty :
  Graph.empty.Valid
  := by
  apply valid_of_nodes
  simp

/-- The graph that an editor begins with is valid. -/
theorem valid_withInput :
  Graph.withInput.Valid
  := by
  apply valid_of_nodes
  simp

end Graph

end TextPipeline
