import TextPipeline.Proofs.EdgeIds

/-!
# Undoing edits

A new edge is the only one with its id, and a new node the only one with its id and without edges.
So each is taken away again by its id alone, and what is left is the graph as it was.  An edge that
has been taken away can be drawn again, since a graph stays valid with its edges in another order,
and in general a connection that is accepted stays acceptable while edges are taken away.
-/

namespace TextPipeline

namespace Graph

variable {g g' : Graph}

/-! ### Taking away what was added -/

/-- The edge of a new connection is taken away again by its id. -/
theorem removeEdge_of_connect {source target id : String}
    (h : g.connect source target = .ok (id, g')) :
  g'.removeEdge id = some (⟨id, source, target⟩, g)
  := by
  obtain ⟨-, rfl, rfl⟩ := connect_eq_ok_iff_refusal?.mp h
  have hothers : ∀ e ∈ g.edges, ¬ decide (e.id = nextEdgeId g.edges) = true := by
    intro e he hid
    apply id_ne_nextEdgeId he (of_decide_eq_true hid)
  apply removeEdge_eq_some_iff.mpr
  constructor
  · rw [List.find?_append, List.find?_eq_none.mpr hothers]
    simp
  · rw [List.eraseP_append_right _ hothers]
    simp

/-- A new node of a valid graph is taken away again by its id, and no edge goes with it. -/
theorem Valid.removeNode_of_addNode (hvalid : g.Valid) {n : Node} (h : g.addNode n = .ok g') :
  g'.removeNode n.id = some (n, g)
  := by
  obtain ⟨hfresh, rfl⟩ := addNode_eq_ok_iff.mp h
  have hothers : ∀ m ∈ g.nodes, ¬ decide (m.id = n.id) = true := by
    intro m hm hid
    apply ne_of_mem_of_not_mem (List.mem_map_of_mem hm) hfresh (of_decide_eq_true hid)
  have hedges : (g.edges.filter fun e => e.source ≠ n.id ∧ e.target ≠ n.id) = g.edges := by
    apply List.filter_eq_self.mpr
    intro e he
    obtain ⟨hsource, htarget⟩ := hvalid.attached e he
    rw [decide_eq_true_eq]
    use ne_of_mem_of_not_mem hsource hfresh, ne_of_mem_of_not_mem htarget hfresh
  apply removeNode_eq_some_iff.mpr
  constructor
  · rw [node?, List.find?_append, List.find?_eq_none.mpr hothers]
    simp
  · rw [hedges, List.eraseP_append_right _ hothers]
    simp

/-! ### Drawing an edge again -/

/-- An edge of a valid graph is accepted behind the others when it has been taken away. -/
theorem Valid.refusal?_without (hvalid : g.Valid) {front back : List Edge} {e : Edge}
    (h : g.edges = front ++ e :: back) :
  (⟨g.nodes, front ++ back⟩ : Graph).refusal? e.source e.target = none
  := by
  have hwithout : (⟨g.nodes, front ++ back⟩ : Graph).Valid := by
    apply hvalid.of_sublist
    rw [h]
    apply (List.sublist_cons_self e back).append_left
  apply hwithout.refusal?_eq_none_iff.mpr
  apply hvalid.of_perm
  rw [h]
  apply (List.perm_append_singleton e (front ++ back)).trans List.perm_middle.symm

/-! ### Fewer edges -/

/-- A connection that is accepted is accepted without some of the edges, too. -/
theorem refusal?_eq_none_of_subset (hacyclic : Acyclic g.edges) {edges : List Edge}
    (hsub : edges ⊆ g.edges) {source target : String} (h : g.refusal? source target = none) :
  (⟨g.nodes, edges⟩ : Graph).refusal? source target = none
  := by
  obtain ⟨hsource, htarget, hends, hnew, hback⟩ := (refusal?_eq_none_iff hacyclic).mp h
  apply (refusal?_eq_none_iff (hacyclic.mono hsub)).mpr
  refine ⟨hsource, htarget, hends, ?_, ?_⟩
  · intro hlink
    apply hnew (hlink.mono hsub)
  · intro hreach
    apply hback (hreach.mono hsub)

end Graph

/-- A run that only takes edges away leaves the nodes and some of the edges. -/
theorem Session.exists_graph_run_removeEdge (supply : Nat → String) (s : Session)
    (ids : List String) :
  ∃ edges, edges.Sublist s.graph.edges ∧
    (s.run supply (ids.map .removeEdge)).2.graph = ⟨s.graph.nodes, edges⟩
  := by
  induction ids generalizing s with
  | nil => exact ⟨_, .refl _, rfl⟩
  | cons id ids ih =>
    obtain ⟨edges, hsub, hrun⟩ := ih (s.perform supply (.removeEdge id)).2
    rw [List.map_cons, run_cons, hrun]
    use edges
    rw [perform] at hsub ⊢
    split at hsub
    · next hremove =>
      obtain ⟨-, rfl⟩ := Graph.removeEdge_eq_some_iff.mp hremove
      use hsub.trans List.eraseP_sublist
    · use hsub

/-- In a graph that an editor has made, an edge that connects two nodes is taken away by its id;
this gives the graph as it was, and the nodes are connected again under the same id.  A new node is
taken away by its id, which gives the graph as it was, too.  When an edge is taken away, the first
one of the given id, its ends can be connected at once: the other edges stay in their order, and the
new edge comes behind them under an id that none of them has.  A connection that is accepted is
accepted as well after any number of edges have been taken away, whichever they are. -/
theorem Graph.Reachable.edits_undone {g : Graph} (h : g.Reachable) :
  (∀ source target id g', g.connect source target = .ok (id, g') →
    ∃ g'', g'.removeEdge id = some (⟨id, source, target⟩, g'') ∧ g'' = g ∧
      g''.connect source target = .ok (id, g')) ∧
  (∀ n g', g.addNode n = .ok g' → g'.removeNode n.id = some (n, g)) ∧
  (∀ id e g', g.removeEdge id = some (e, g') →
    ∃ front back newId, g.edges = front ++ e :: back ∧ e.id = id ∧ (∀ e' ∈ front, e'.id ≠ id) ∧
      g' = ⟨g.nodes, front ++ back⟩ ∧ (∀ e' ∈ front ++ back, e'.id ≠ newId) ∧
      g'.connect e.source e.target
        = .ok (newId, ⟨g.nodes, front ++ back ++ [⟨newId, e.source, e.target⟩]⟩)) ∧
  (∀ source target id g', g.connect source target = .ok (id, g') →
    ∀ (supply : Nat → String) (drawn : Nat) (ids : List String), ∃ edges newId,
      edges.Sublist g.edges ∧
      (Session.run supply ⟨g, drawn⟩ (ids.map .removeEdge)).2.graph = ⟨g.nodes, edges⟩ ∧
      (⟨g.nodes, edges⟩ : Graph).connect source target
        = .ok (newId, ⟨g.nodes, edges ++ [⟨newId, source, target⟩]⟩))
  := by
  refine ⟨?_, ?_, ?_, ?_⟩
  · intro source target id g' hconnect
    use g, removeEdge_of_connect hconnect, rfl
  · intro n g' hadd
    apply h.valid.removeNode_of_addNode hadd
  · intro id e g' hremove
    obtain ⟨front, back, hedges, hid, hfront, rfl⟩ := exists_of_removeEdge hremove
    use front, back, nextEdgeId (front ++ back), hedges, hid, hfront, rfl
    use fun e' he' => id_ne_nextEdgeId he'
    apply connect_eq_ok_iff_refusal?.mpr ⟨h.valid.refusal?_without hedges, rfl, rfl⟩
  · intro source target id g' hconnect supply drawn ids
    obtain ⟨edges, hsub, hrun⟩ := Session.exists_graph_run_removeEdge supply ⟨g, drawn⟩ ids
    obtain ⟨hnone, -, -⟩ := connect_eq_ok_iff_refusal?.mp hconnect
    use edges, nextEdgeId edges, hsub, hrun
    apply connect_eq_ok_iff_refusal?.mpr
    use refusal?_eq_none_of_subset h.valid.acyclic hsub.subset hnone

/-- Two edges of one id, the number that a third edge would get if they did not have it. -/
def sharedId : Document :=
  ⟨["a", "b", "c"].map (Node.plain · "stemming"), [⟨"3", "a", "b"⟩, ⟨"3", "b", "c"⟩]⟩

/-- A third edge gets another id and is taken away again by it.  A new node is taken away again.
The first of the two edges is drawn again behind the second one, and the third connection is
accepted when both are gone. -/
theorem Graph.edits_undone_sharedId :
  sharedId.graph.Reachable ∧
    (∃ g', sharedId.graph.connect "a" "c" = .ok ("4", g') ∧
      g'.removeEdge "4" = some (⟨"4", "a", "c"⟩, sharedId.graph)) ∧
    (∃ g', sharedId.graph.addNode (.plain "d" "stemming") = .ok g' ∧
      g'.removeNode "d" = some (.plain "d" "stemming", sharedId.graph)) ∧
    (∃ e g' id g'', sharedId.graph.removeEdge "3" = some (e, g') ∧
      g'.connect e.source e.target = .ok (id, g'') ∧
      g''.edges.map (fun e => (e.source, e.target)) = [("b", "c"), ("a", "b")]) ∧
    ∃ g' id, (Session.run (fun _ => "") ⟨sharedId.graph, 0⟩ (["3", "3"].map .removeEdge)).2.graph
        = ⟨sharedId.graph.nodes, []⟩ ∧
      (⟨sharedId.graph.nodes, []⟩ : Graph).connect "a" "c" = .ok (id, g')
  := by
  have hreach : sharedId.graph.Reachable := reachable_of_ofDocument (d := sharedId) (by cbv)
  obtain ⟨hconnected, hadded, hremoved, hfewer⟩ := hreach.edits_undone
  obtain ⟨g', hconnect⟩ : ∃ g', sharedId.graph.connect "a" "c" = .ok ("4", g') := by
    use ⟨sharedId.graph.nodes, sharedId.graph.edges ++ [⟨"4", "a", "c"⟩]⟩
    cbv
  obtain ⟨h', hadd⟩ : ∃ h', sharedId.graph.addNode (.plain "d" "stemming") = .ok h' := by
    use ⟨sharedId.graph.nodes ++ [.plain "d" "stemming"], sharedId.graph.edges⟩
    cbv
  have hremove : sharedId.graph.removeEdge "3"
      = some (⟨"3", "a", "b"⟩, ⟨sharedId.graph.nodes, [⟨"3", "b", "c"⟩]⟩) := by
    cbv
  refine ⟨hreach, ⟨g', hconnect, ?_⟩, ⟨h', hadd, hadded _ _ hadd⟩, ?_, ?_⟩
  · obtain ⟨g'', hundo, rfl, -⟩ := hconnected _ _ _ _ hconnect
    apply hundo
  · obtain ⟨front, back, newId, -, -, -, hrest, -, hredraw⟩ := hremoved _ _ _ hremove
    refine ⟨_, _, newId, _, hremove, hredraw, ?_⟩
    rw [← (Graph.mk.inj hrest).2]
    rfl
  · obtain ⟨edges, newId, -, hrun, haccepted⟩ := hfewer _ _ _ _ hconnect (fun _ => "") 0 ["3", "3"]
    have hnone : (Session.run (fun _ => "") ⟨sharedId.graph, 0⟩
        (["3", "3"].map .removeEdge)).2.graph = ⟨sharedId.graph.nodes, []⟩ := by
      cbv
    obtain rfl : edges = [] := by
      rw [hnone] at hrun
      apply (Graph.mk.inj hrun).2.symm
    exact ⟨_, newId, hnone, haccepted⟩

end TextPipeline
