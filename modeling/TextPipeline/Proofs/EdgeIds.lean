import TextPipeline.Proofs.IdleCommands

/-!
# Ids of edges

A new edge gets the first decimal number above the number of edges that no edge has as its id.
The edges may have any ids, and may share them: they take at most as many numbers as there are
edges, so that one is free before twice their number is passed.  Apart from loading, an edit takes
edges away or adds a single one with such an id.  Hence ids that are distinct stay distinct.
-/

namespace TextPipeline

namespace Graph

/-- The ids of the edges in their order. -/
def edgeIds (g : Graph) : List String :=
  g.edges.map (·.id)

/-- From any number on, no more numbers are taken one after the other than there are edges. -/
theorem exists_free_id (edges : List Edge) (start : Nat) :
  ∃ i ≤ edges.length, ∀ e ∈ edges, e.id ≠ toString (start + i)
  := by
  by_contra! htaken
  let texts := (List.range (edges.length + 1)).map fun i => toString (start + i)
  have hdistinct : texts.Nodup := by
    apply List.Nodup.map _ List.nodup_range
    intro i j h
    apply Nat.add_left_cancel (Nat.repr_inj.mp h)
  have htexts : texts ⊆ edges.map (·.id) := by
    intro text htext
    obtain ⟨i, hi, rfl⟩ := List.mem_map.mp htext
    obtain ⟨e, he, hid⟩ := htaken i (Nat.le_of_lt_succ (List.mem_range.mp hi))
    rw [← hid]
    apply List.mem_map_of_mem he
  have hlength := (hdistinct.subperm htexts).length_le
  simp only [texts, List.length_map, List.length_range] at hlength
  omega

/-- The id of one more edge is the least number above the number of edges that no edge has as its
id, and it is at most one above twice the number of edges. -/
theorem exists_nextEdgeId_eq (edges : List Edge) :
  ∃ n, nextEdgeId edges = toString n ∧ n ≤ 2 * edges.length + 1 ∧
    IsLeast {n | edges.length + 1 ≤ n ∧ ∀ e ∈ edges, e.id ≠ toString n} n
  := by
  let free (i : Nat) : Bool := edges.all fun e => e.id ≠ toString (edges.length + 1 + i)
  have hfree : ∀ i, free i = true ↔ ∀ e ∈ edges, e.id ≠ toString (edges.length + 1 + i) := by
    intro i
    simp [free]
  have hsearch : nextEdgeId edges
      = (((List.range (edges.length + 1)).find? free).map
          fun i => toString (edges.length + 1 + i)).getD "" := by
    rw [nextEdgeId, List.find?_map]
    rfl
  obtain ⟨i, hi, hnew⟩ := exists_free_id edges (edges.length + 1)
  cases hfind : (List.range (edges.length + 1)).find? free with
  | none =>
    -- The search has looked at the number that is known to be free.
    exfalso
    apply List.find?_eq_none.mp hfind i (List.mem_range.mpr (by omega))
    apply (hfree i).mpr hnew
  | some k =>
    obtain ⟨hk, hrange, hbefore⟩ := List.find?_range_eq_some.mp hfind
    use edges.length + 1 + k
    refine ⟨?_, ?_, ⟨by omega, (hfree k).mp hk⟩, ?_⟩
    · rw [hsearch, hfind]
      rfl
    · have := List.mem_range.mp hrange
      omega
    · rintro m ⟨hm, hmfree⟩
      obtain ⟨j, rfl⟩ := Nat.exists_eq_add_of_le hm
      by_contra hlt
      have hj := hbefore j (by omega)
      rw [(hfree j).mpr hmfree] at hj
      cases hj

/-- No edge has the id that one more edge gets. -/
theorem nextEdgeId_notMem (g : Graph) :
  nextEdgeId g.edges ∉ g.edgeIds
  := by
  obtain ⟨n, hn, -, ⟨-, hfree⟩, -⟩ := exists_nextEdgeId_eq g.edges
  rw [hn]
  intro hmem
  obtain ⟨e, he, hid⟩ := List.mem_map.mp hmem
  apply hfree e he hid

/-- The id that one more edge gets is not that of an edge. -/
theorem id_ne_nextEdgeId {edges : List Edge} {e : Edge} (he : e ∈ edges) :
  e.id ≠ nextEdgeId edges
  := ne_of_mem_of_not_mem (List.mem_map_of_mem he) (nextEdgeId_notMem ⟨[], edges⟩)

end Graph

namespace Session

variable {supply : Nat → String} {s : Session}

/-- A command that loads nothing takes edges away or none, or it adds one under the next id. -/
theorem edges_perform (supply : Nat → String) (s : Session) {c : Command}
    (h : ∀ text, c ≠ .load text) :
  (s.perform supply c).2.graph.edges.Sublist s.graph.edges ∨
    ∃ source target, (s.perform supply c).2.graph.edges
      = s.graph.edges ++ [⟨Graph.nextEdgeId s.graph.edges, source, target⟩]
  := by
  have hoccurs := occurs_perform supply s c
  generalize s.perform supply c = outcome at hoccurs ⊢
  cases hoccurs with
  | loaded => apply absurd rfl (h _)
  | cleared => exact .inl (List.nil_sublist _)
  | begun => exact .inl (List.nil_sublist _)
  | unchanged => exact .inl (.refl _)
  | operationAdded => exact .inl (.refl _)
  | nodeAdded hadd =>
    obtain ⟨-, rfl⟩ := Graph.addNode_eq_ok_iff.mp hadd
    exact .inl (.refl _)
  | updated hupdate =>
    obtain ⟨-, rfl⟩ := Graph.updateNode_eq_ok_iff.mp hupdate
    exact .inl (.refl _)
  | nodeRemoved hremove =>
    obtain ⟨-, rfl⟩ := Graph.removeNode_eq_some_iff.mp hremove
    exact .inl List.filter_sublist
  | edgeRemoved hremove =>
    obtain ⟨-, rfl⟩ := Graph.removeEdge_eq_some_iff.mp hremove
    exact .inl List.eraseP_sublist
  | @connected source target _ _ hconnect =>
    obtain ⟨-, rfl, rfl⟩ := Graph.connect_eq_ok_iff_refusal?.mp hconnect
    exact .inr ⟨source, target, rfl⟩

/-- A command that loads nothing keeps the ids of the edges distinct. -/
theorem nodup_edgeIds_perform (h : s.graph.edgeIds.Nodup) {c : Command}
    (hc : ∀ text, c ≠ .load text) :
  (s.perform supply c).2.graph.edgeIds.Nodup
  := by
  obtain hfewer | ⟨source, target, hmore⟩ := edges_perform supply s hc
  · apply h.sublist (hfewer.map _)
  · rw [Graph.edgeIds, hmore, List.map_append, List.map_singleton, ← List.concat_eq_append]
    apply h.concat (Graph.nextEdgeId_notMem s.graph)

/-- A run that loads nothing keeps the ids of the edges distinct. -/
theorem nodup_edgeIds_run (h : s.graph.edgeIds.Nodup) {cs : List Command}
    (hcs : ∀ c ∈ cs, ∀ text, c ≠ .load text) :
  (s.run supply cs).2.graph.edgeIds.Nodup
  := by
  induction cs generalizing s with
  | nil => apply h
  | cons c cs ih =>
    rw [run_cons]
    apply ih
    · apply nodup_edgeIds_perform h (hcs c List.mem_cons_self)
    · intro d hd
      apply hcs d (List.mem_cons_of_mem c hd)

/-- In any graph, whatever the ids of its edges are, an edge that connects two nodes gets as its id
the decimal text of the least number above the number of edges that no edge has as its id.  There
is such a number up to one above twice the number of edges, and so the search for it ends and the
id is never empty.  Hence, if the ids of the edges are distinct, they stay distinct in every run
that loads nothing. -/
theorem ids_of_new_edges :
  (∀ (g g' : Graph) (source target id : String), g.connect source target = .ok (id, g') →
    g'.edges = g.edges ++ [⟨id, source, target⟩] ∧ id ≠ "" ∧
    ∃ n, id = toString n ∧ n ≤ 2 * g.edges.length + 1 ∧
      IsLeast {n | g.edges.length + 1 ≤ n ∧ ∀ e ∈ g.edges, e.id ≠ toString n} n) ∧
  ∀ (supply : Nat → String) (s : Session) (cs : List Command),
    (∀ c ∈ cs, ∀ text, c ≠ .load text) → (s.graph.edges.map (·.id)).Nodup →
      ((s.run supply cs).2.graph.edges.map (·.id)).Nodup
  := by
  constructor
  · intro g g' source target id hconnect
    obtain ⟨rfl, hadd⟩ := Graph.connect_eq_ok_iff.mp hconnect
    obtain ⟨-, rfl⟩ := Graph.addEdge_eq_ok_iff.mp hadd
    obtain ⟨n, hn, hbound, hleast⟩ := Graph.exists_nextEdgeId_eq g.edges
    refine ⟨rfl, ?_, n, hn, hbound, hleast⟩
    rw [hn]
    simp
  · intro supply s cs hcs h
    apply nodup_edgeIds_run h hcs

/-- Nodes in a row, with ids of the edges between them. -/
def row (ids : List String) : Graph :=
  let nodes := ["a", "b", "c", "d"]
  ⟨nodes.map (Node.plain · "stemming"),
    (ids.zip (nodes.zip nodes.tail)).map fun (id, source, target) => ⟨id, source, target⟩⟩

/-- The first edge of a row is removed, and its ends and those of the row are connected. -/
def reconnectingEnds : List Command :=
  [.removeEdge "1", .connect "a" "d", .connect "a" "b"]

/-- In a row whose edges take the numbers four and five, one of them twice, a new edge gets the
number six.  In a row with numbered edges, of which the first is removed, two new edges get ids
that are not in use. -/
theorem ids_of_new_edges_row :
  (∃ g', (row ["4", "5", "4"]).connect "a" "d" = .ok ("6", g') ∧
      IsLeast {n | 4 ≤ n ∧ ∀ e ∈ (row ["4", "5", "4"]).edges, e.id ≠ toString n} 6) ∧
    (∀ c ∈ reconnectingEnds, ∀ text, c ≠ .load text) ∧
    ((row ["1", "2", "3"]).edges.map (·.id)).Nodup ∧
    ((run (fun _ => "") ⟨row ["1", "2", "3"], 0⟩ reconnectingEnds).2.graph.edges.map
      (·.id)).Nodup
  := by
  obtain ⟨hids, hrun⟩ := ids_of_new_edges
  have hload : ∀ c ∈ reconnectingEnds, ∀ text, c ≠ .load text := by
    simp [reconnectingEnds]
  have hdistinct : ((row ["1", "2", "3"]).edges.map (·.id)).Nodup := by
    decide
  refine ⟨?_, hload, hdistinct, hrun _ ⟨row ["1", "2", "3"], 0⟩ _ hload hdistinct⟩
  have hconnect : ∃ g', (row ["4", "5", "4"]).connect "a" "d" = .ok ("6", g') := by
    use ⟨(row ["4", "5", "4"]).nodes, (row ["4", "5", "4"]).edges ++ [⟨"6", "a", "d"⟩]⟩
    cbv
  obtain ⟨g', hg'⟩ := hconnect
  use g', hg'
  obtain ⟨-, -, n, hn, -, hleast⟩ := hids _ _ _ _ _ hg'
  obtain rfl : 6 = n := Nat.repr_inj.mp hn
  apply hleast

end Session

end TextPipeline
