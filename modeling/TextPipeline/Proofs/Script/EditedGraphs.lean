import TextPipeline.Proofs.Script.VisitedNodes

/-!
# Orders of edited graphs

A walk sees nothing of a graph but its roots and, of what comes from a root, the nodes and their
successors.  Graphs that agree in these are walked in the same way, step by step.  So an edit among
nodes that are not visited leaves the script as it is, unless it decides whether an input is a root.
An edge from a visited node adds what its target reaches to the visited nodes, and takes none away:
the target may have been a root, but then it is reached from the root that its new predecessor comes
from, which is another one since there is no cycle.
-/

namespace TextPipeline

/-- What comes from a root is the same in both graphs. -/
structure Graph.Agree (g g' : Graph) : Prop where
  roots : g'.roots = g.roots
  successors : ∀ id, g.FromRoot id → successors g'.edges id = successors g.edges id
  lastNode? : ∀ id, g.FromRoot id → g'.lastNode? id = g.lastNode? id

/-! ### Graphs that agree -/

namespace Tour

variable {g g' : Graph} {t : Tour}

/-- In graphs that agree a node that comes from a root is visited in the same way. -/
theorem visit_eq (h : g.Agree g') {n : Node} (hn : g.FromRoot n.id) (queue : List Node) :
  t.visit g' n queue = t.visit g n queue
  := by
  have hnodes : ∀ ids : List String, (∀ id ∈ ids, Linked g.edges n.id id) →
      ids.filterMap g'.lastNode? = ids.filterMap g.lastNode? := by
    intro ids hids
    apply List.filterMap_congr
    intro id hid
    obtain ⟨root, hroot, hreach⟩ := hn
    apply h.lastNode? id ⟨root, hroot, hreach.tail (hids id hid)⟩
  rw [visit, visit, h.successors n.id hn, hnodes]
  intro id hid
  apply mem_successors.mp (List.mem_of_mem_filter hid)

/-- In graphs that agree a walk that has met nothing but what comes from a root takes the same
step. -/
theorem step_eq (h : g.Agree g') (ht : ∀ id, t.Met id → g.FromRoot id) :
  t.step g' = t.step g
  := by
  rw [step, step]
  split
  · rfl
  · next n queue hqueue =>
    have hn : g.FromRoot n.id := ht _ (.inr ⟨n, by simp [hqueue], rfl⟩)
    rw [visit_eq h hn]

/-- In graphs that agree a walk that has met nothing but what comes from a root ends in the same
way. -/
theorem finish_eq (h : g.Agree g') (ht : ∀ id, t.Met id → g.FromRoot id) :
  t.finish g' = t.finish g
  := by
  fun_induction t.finish g with
  | case1 t hend =>
    rw [← step_eq h ht] at hend
    apply (finish_of_step_eq_none hend).2
  | case2 t u hu ih =>
    rw [finish_of_step_eq_some ((step_eq h ht).trans hu)]
    apply ih
    intro id hid
    apply fromRoot_of_met_step ht hu hid

end Tour

namespace Graph

variable {g g' : Graph}

/-- Graphs that agree have the same order. -/
theorem Agree.executionOrder_eq (h : g.Agree g') :
  g'.executionOrder = g.executionOrder
  := by
  have hstart : Tour.start g' = Tour.start g := by
    rw [Tour.start, Tour.start, h.roots]
  rw [executionOrder, hstart]
  apply Tour.finish_eq h (Tour.coverage_start g).sound

/-- The roots of a valid graph are the inputs that no edge leads to. -/
theorem Valid.roots_eq (h : g.Valid) :
  g.roots = g.nodes.filter fun n => n.kind = inputKind ∧ ∀ e ∈ g.edges, e.target ≠ n.id
  := by
  apply List.filter_congr
  intro n _
  rw [Bool.eq_iff_iff, h.isRoot_iff, decide_eq_true_eq]

/-- What comes from a root of a valid graph is a node of it. -/
theorem Valid.mem_ids_of_fromRoot (h : g.Valid) {id : String} (hid : g.FromRoot id) :
  id ∈ g.ids
  := by
  obtain ⟨root, hroot, hreach⟩ := hid
  obtain rfl | ⟨_, -, hlink⟩ := Relation.ReflTransGen.cases_tail hreach
  · apply List.mem_map_of_mem (h.mem_roots_iff.mp hroot).1
  · apply h.mem_ids_of_linked hlink

/-! ### Edits among nodes that are not visited -/

/-- A graph agrees with the one that has one more node, if the node is no input. -/
theorem Valid.agree_addNode (h : g.Valid) {n : Node} (hadd : g.addNode n = .ok g')
    (hkind : n.kind ≠ inputKind) :
  g.Agree g'
  := by
  have h' := h.addNode hadd
  obtain ⟨hfresh, rfl⟩ := addNode_eq_ok_iff.mp hadd
  constructor
  · rw [h.roots_eq, h'.roots_eq, List.filter_append, List.filter_singleton]
    simp [hkind]
  · intro id _
    rfl
  · intro id hid
    have hne : n.id ≠ id := (ne_of_mem_of_not_mem (h.mem_ids_of_fromRoot hid) hfresh).symm
    simp [lastNode?, hne]

/-- An edge to a node that is no input does not decide which nodes are roots. -/
theorem roots_insert_edge {nodes : List Node} {front back : List Edge} {e : Edge}
    (h : (⟨nodes, front ++ e :: back⟩ : Graph).Valid)
    (hkind : ∀ n ∈ nodes, n.id = e.target → n.kind ≠ inputKind) :
  (⟨nodes, front ++ e :: back⟩ : Graph).roots = (⟨nodes, front ++ back⟩ : Graph).roots
  := by
  have h' : (⟨nodes, front ++ back⟩ : Graph).Valid := by
    apply h.of_sublist
    apply (List.sublist_cons_self e back).append_left
  rw [h.roots_eq, h'.roots_eq]
  apply List.filter_congr
  intro n hn
  rw [decide_eq_decide]
  apply and_congr_right
  intro hinput
  have hne : e.target ≠ n.id := fun hid => hkind n hn hid.symm hinput
  simp [or_imp, forall_and, hne]

/-- An edge counts among the successors of no node but its source. -/
theorem successors_insert_edge {front back : List Edge} {e : Edge} {id : String}
    (h : e.source ≠ id) :
  successors (front ++ e :: back) id = successors (front ++ back) id
  := by
  simp [successors, h]

/-- A graph agrees with the one that has one more edge, if the edge does not come from a visited
node nor lead to an input. -/
theorem Valid.agree_connect (h : g.Valid) {source target id : String}
    (hconnect : g.connect source target = .ok (id, g')) (hsource : ¬ g.FromRoot source)
    (hkind : ∀ n ∈ g.nodes, n.id = target → n.kind ≠ inputKind) :
  g.Agree g'
  := by
  have h' := h.connect hconnect
  obtain ⟨-, -, rfl⟩ := connect_eq_ok_iff_refusal?.mp hconnect
  constructor
  · rw [roots_insert_edge h' hkind, List.append_nil]
  · intro a ha
    rw [successors_insert_edge, List.append_nil]
    rintro rfl
    apply hsource ha
  · intro a _
    rfl

/-- A graph agrees with the one without an edge, if the edge does not come from a visited node nor
lead to an input. -/
theorem Valid.agree_removeEdge (h : g.Valid) {id : String} {e : Edge}
    (hremove : g.removeEdge id = some (e, g')) (hsource : ¬ g.FromRoot e.source)
    (hkind : ∀ n ∈ g.nodes, n.id = e.target → n.kind ≠ inputKind) :
  g.Agree g'
  := by
  obtain ⟨nodes, edges⟩ := g
  obtain ⟨front, back, rfl, -, -, rfl⟩ := exists_of_removeEdge hremove
  constructor
  · rw [roots_insert_edge h hkind]
  · intro a ha
    rw [successors_insert_edge]
    rintro rfl
    apply hsource ha
  · intro a _
    rfl

/-- The nodes of a valid graph but one of them have other ids than this one. -/
theorem Valid.id_ne_of_mem (h : g.Valid) {front back : List Node} {n m : Node}
    (hnodes : g.nodes = front ++ n :: back) (hm : m ∈ front ++ back) :
  m.id ≠ n.id
  := by
  have hdistinct := h.distinct
  rw [ids, hnodes, (List.perm_middle.map _).nodup_iff, List.map_cons, List.nodup_cons] at hdistinct
  intro hid
  apply hdistinct.1
  rw [← hid]
  apply List.mem_map_of_mem hm

/-- A graph agrees with the one without a node, if the node is not visited and no edge leads from it
to an input. -/
theorem Valid.agree_removeNode (h : g.Valid) {id : String} {n : Node}
    (hremove : g.removeNode id = some (n, g')) (hid : ¬ g.FromRoot id)
    (hkind : ∀ e ∈ g.edges, e.source = id → ∀ m ∈ g.nodes, m.id = e.target → m.kind ≠ inputKind) :
  g.Agree g'
  := by
  have h' := h.removeNode hremove
  obtain ⟨front, back, hnodes, rfl, rfl⟩ := exists_of_removeNode hremove
  have hnodes' : ∀ m, m ∈ g.nodes ↔ m = n ∨ m ∈ front ++ back := by
    intro m
    rw [hnodes, List.perm_middle.mem_iff, List.mem_cons]
  constructor
  · have hn : n ∉ g.roots := fun hroot => hid ⟨n, hroot, .refl⟩
    have hroots : g.roots = (front ++ back).filter g.isRoot := by
      rw [roots, List.mem_filter, not_and] at hn
      rw [roots, hnodes, List.filter_append, List.filter_append, List.filter_cons_of_neg]
      apply hn ((hnodes' n).mpr (.inl rfl))
    rw [hroots, roots]
    apply List.filter_congr
    intro m hm
    rw [Bool.eq_iff_iff, h.isRoot_iff, h'.isRoot_iff]
    apply and_congr_right
    intro hinput
    constructor
    · intro hnone e he htarget
      -- Only an edge from the removed node could go with it and lead to another node.
      by_cases hsource : e.source = n.id
      · apply hkind e he hsource m ((hnodes' m).mpr (.inr hm)) htarget.symm hinput
      · apply hnone e (List.mem_filter.mpr ⟨he, _⟩) htarget
        rw [decide_eq_true_eq, htarget]
        use hsource, h.id_ne_of_mem hnodes hm
    · intro hnone e he
      apply hnone e (List.mem_of_mem_filter he)
  · intro a ha
    rw [successors, successors, List.filter_filter]
    congr 1
    apply List.filter_congr
    intro e he
    by_cases hsource : e.source = a
    · have htarget : g.FromRoot e.target := by
        obtain ⟨root, hroot, hreach⟩ := ha
        use root, hroot, hreach.tail ⟨e, he, hsource, rfl⟩
      have hne : ∀ b, g.FromRoot b → b ≠ n.id := fun b hb hbn => hid (hbn ▸ hb)
      simp [hsource, hne a ha, hne _ htarget]
    · simp [hsource]
  · intro a ha
    have hne : n.id ≠ a := fun hna => hid (hna ▸ ha)
    simp [lastNode?, hnodes, hne]

/-! ### An edge from a visited node -/

/-- The roots of a valid graph with one more edge are those that the edge does not lead to. -/
theorem Valid.mem_roots_append_iff (h : g.Valid) {e : Edge}
    (h' : (⟨g.nodes, g.edges ++ [e]⟩ : Graph).Valid) {n : Node} :
  n ∈ (⟨g.nodes, g.edges ++ [e]⟩ : Graph).roots ↔ n ∈ g.roots ∧ n.id ≠ e.target
  := by
  rw [h'.mem_roots_iff, h.mem_roots_iff]
  simp only [List.forall_mem_append, List.forall_mem_singleton, ne_comm, and_assoc]

/-- With one more edge from a node that comes from a root, what came from a root still does, and so
does what the target of the edge reaches. -/
theorem Valid.fromRoot_append_iff (h : g.Valid) {e : Edge}
    (h' : (⟨g.nodes, g.edges ++ [e]⟩ : Graph).Valid) (hsource : g.FromRoot e.source)
    {id : String} :
  (⟨g.nodes, g.edges ++ [e]⟩ : Graph).FromRoot id ↔ g.FromRoot id ∨ Reaches g.edges e.target id
  := by
  constructor
  · rintro ⟨root, hroot, hreach⟩
    obtain hreach | ⟨-, hreach⟩ := reaches_append_singleton.mp hreach
    · exact .inl ⟨root, ((h.mem_roots_append_iff h').mp hroot).1, hreach⟩
    · exact .inr hreach
  · -- The root that the source comes from stays a root, since no path led back to the source.
    have hnext : ∀ {a}, Reaches g.edges e.target a →
        (⟨g.nodes, g.edges ++ [e]⟩ : Graph).FromRoot a := by
      intro a hreach
      obtain ⟨root, hroot, hfrom⟩ := hsource
      have hne : root.id ≠ e.target := by
        intro hid
        apply (acyclic_append_singleton.mp h'.acyclic).2
        rw [← hid]
        apply hfrom
      use root, (h.mem_roots_append_iff h').mpr ⟨hroot, hne⟩
      apply reaches_append_singleton.mpr (.inr ⟨hfrom, hreach⟩)
    rintro (⟨root, hroot, hreach⟩ | hreach)
    · by_cases hid : root.id = e.target
      · rw [hid] at hreach
        apply hnext hreach
      · use root, (h.mem_roots_append_iff h').mpr ⟨hroot, hid⟩
        apply reaches_append_singleton.mpr (.inl hreach)
    · apply hnext hreach

end Graph

namespace Compiler

/-- Graphs that agree give the same script. -/
theorem compile_eq_of_agree (c : Compiler) {g g' : Graph} (h : g.Agree g') :
  c.compile g' = c.compile g
  := by
  rw [compile, compile, h.executionOrder_eq]

/-- The nodes that are not visited come from no root. -/
theorem notMem_order_iff (c : Compiler) {g : Graph} (h : g.Valid) {id : String} :
  id ∉ (c.compile g).order ↔ ¬ g.FromRoot id
  := not_congr (h.mem_executionOrder_iff.2 id)

/-- The script of a graph that an editor has made stays as it is, with its text, its order and its
kinds, when a node that is not visited is removed from which no edge leads to an input, when a node
is added that is no input, when a node that is not visited is connected to one that is no input, and
when an edge between two such nodes is removed. -/
theorem compile_edited (c : Compiler) {g : Graph} (h : g.Reachable) :
  (∀ id n g', g.removeNode id = some (n, g') → id ∉ (c.compile g).order →
    (∀ e ∈ g.edges, e.source = id → ∀ m ∈ g.nodes, m.id = e.target → m.kind ≠ "textInput") →
      c.compile g' = c.compile g) ∧
  (∀ n g', g.addNode n = .ok g' → n.kind ≠ "textInput" → c.compile g' = c.compile g) ∧
  (∀ source target id g', g.connect source target = .ok (id, g') →
    source ∉ (c.compile g).order →
    (∀ n ∈ g.nodes, n.id = target → n.kind ≠ "textInput") → c.compile g' = c.compile g) ∧
  (∀ id e g', g.removeEdge id = some (e, g') → e.source ∉ (c.compile g).order →
    (∀ n ∈ g.nodes, n.id = e.target → n.kind ≠ "textInput") → c.compile g' = c.compile g)
  := by
  refine ⟨?_, ?_, ?_, ?_⟩
  · intro id n g' hremove hid hkind
    rw [c.notMem_order_iff h.valid] at hid
    apply c.compile_eq_of_agree (h.valid.agree_removeNode hremove hid hkind)
  · intro n g' hadd hkind
    apply c.compile_eq_of_agree (h.valid.agree_addNode hadd hkind)
  · intro source target id g' hconnect hsource hkind
    rw [c.notMem_order_iff h.valid] at hsource
    apply c.compile_eq_of_agree (h.valid.agree_connect hconnect hsource hkind)
  · intro id e g' hremove hsource hkind
    rw [c.notMem_order_iff h.valid] at hsource
    apply c.compile_eq_of_agree (h.valid.agree_removeEdge hremove hsource hkind)

/-- The two inputs and the nodes that they lead to are visited, and the node that only leads into
them is not. -/
theorem order_confluence (c : Compiler) :
  (c.compile confluence.graph).order = ["a", "b", "c", "d"]
  := by
  have horder : confluence.graph.executionOrder.map (·.id) = ["a", "b", "c", "d"] := by
    cbv
  apply horder

/-- The script stays as it is when the node that is not visited is removed, when its edge is removed
and when it is connected to another node, and so it does when a node is added. -/
theorem compile_edited_confluence :
  confluence.graph.Reachable ∧ "e" ∉ (standard.compile confluence.graph).order ∧
    (∃ n g', confluence.graph.removeNode "e" = some (n, g') ∧
      standard.compile g' = standard.compile confluence.graph) ∧
    (∃ g', confluence.graph.addNode (.plain "f" "stemming") = .ok g' ∧
      standard.compile g' = standard.compile confluence.graph) ∧
    (∃ g', confluence.graph.connect "e" "d" = .ok ("6", g') ∧
      standard.compile g' = standard.compile confluence.graph) ∧
    ∃ g', confluence.graph.removeEdge "5" = some (⟨"5", "e", "c"⟩, g') ∧
      standard.compile g' = standard.compile confluence.graph
  := by
  have hreach : confluence.graph.Reachable :=
    Graph.reachable_of_ofDocument (d := confluence) (by cbv)
  have he : "e" ∉ (standard.compile confluence.graph).order := by
    rw [order_confluence]
    decide
  obtain ⟨hremoved, hadded, hconnected, hparted⟩ := standard.compile_edited hreach
  obtain ⟨n, g₁, hremove⟩ : ∃ n g', confluence.graph.removeNode "e" = some (n, g') := ⟨_, _, rfl⟩
  obtain ⟨g₂, hadd⟩ : ∃ g', confluence.graph.addNode (.plain "f" "stemming") = .ok g' := ⟨_, rfl⟩
  obtain ⟨g₃, hconnect⟩ : ∃ g', confluence.graph.connect "e" "d" = .ok ("6", g') := by
    use ⟨confluence.graph.nodes, confluence.graph.edges ++ [⟨"6", "e", "d"⟩]⟩
    cbv
  obtain ⟨g₄, hpart⟩ : ∃ g', confluence.graph.removeEdge "5" = some (⟨"5", "e", "c"⟩, g') :=
    ⟨_, rfl⟩
  refine ⟨hreach, he, ⟨n, g₁, hremove, ?_⟩, ⟨g₂, hadd, ?_⟩, ⟨g₃, hconnect, ?_⟩, g₄, hpart, ?_⟩
  · apply hremoved _ _ _ hremove he (by decide)
  · apply hadded _ _ hadd (by decide)
  · apply hconnected _ _ _ _ hconnect he (by decide)
  · apply hparted _ _ _ hpart he (by decide)

/-- When a visited node of a graph that an editor has made is connected to another node, the visited
nodes are those that were visited and those that a path leads to from the other node, with any
number of edges or none; these paths are the same before and after.  So no node is lost.  If the
other node was a root, it is one no longer, and still it is visited with all that was reached
through it. -/
theorem mem_order_connect_iff (c : Compiler) {g g' : Graph} (h : g.Reachable)
    {source target id : String} (hconnect : g.connect source target = .ok (id, g'))
    (hsource : source ∈ (c.compile g).order) :
  (∀ a, a ∈ (c.compile g').order ↔ a ∈ (c.compile g).order ∨ Reaches g.edges target a) ∧
  (∀ a, Reaches g'.edges target a ↔ Reaches g.edges target a) ∧
  (∀ n ∈ g.roots, n.id = target →
    n ∉ g'.roots ∧ ∀ a, Reaches g.edges n.id a → a ∈ (c.compile g').order)
  := by
  have hvalid' := h.valid.connect hconnect
  obtain ⟨-, -, rfl⟩ := Graph.connect_eq_ok_iff_refusal?.mp hconnect
  have hfrom : g.FromRoot source := (h.valid.mem_executionOrder_iff.2 source).mp hsource
  have horder : ∀ a, a ∈ (c.compile ⟨g.nodes, g.edges ++ [⟨id, source, target⟩]⟩).order
      ↔ a ∈ (c.compile g).order ∨ Reaches g.edges target a := by
    intro a
    apply (hvalid'.mem_executionOrder_iff.2 a).trans
    rw [h.valid.fromRoot_append_iff hvalid' hfrom]
    apply or_congr_left (h.valid.mem_executionOrder_iff.2 a).symm
  refine ⟨horder, ?_, ?_⟩
  · intro a
    rw [reaches_append_singleton, or_iff_left]
    rintro ⟨hback, -⟩
    apply (acyclic_append_singleton.mp hvalid'.acyclic).2 hback
  · rintro n hn rfl
    constructor
    · rw [h.valid.mem_roots_append_iff hvalid']
      simp
    · intro a hreach
      apply (horder a).mpr (.inr hreach)

/-- An input is connected to another one, which is a root no longer and still visited, and so is the
node that it leads to. -/
theorem mem_order_connect_confluence :
  confluence.graph.Reachable ∧ "a" ∈ (standard.compile confluence.graph).order ∧
    ∃ g', confluence.graph.connect "a" "b" = .ok ("6", g') ∧
      ⟨"b", inputKind, .origin, .empty⟩ ∈ confluence.graph.roots ∧
      ⟨"b", inputKind, .origin, .empty⟩ ∉ g'.roots ∧
      "b" ∈ (standard.compile g').order ∧ "c" ∈ (standard.compile g').order
  := by
  have hreach : confluence.graph.Reachable :=
    Graph.reachable_of_ofDocument (d := confluence) (by cbv)
  have ha : "a" ∈ (standard.compile confluence.graph).order := by
    rw [order_confluence]
    decide
  have hb : ⟨"b", inputKind, .origin, .empty⟩ ∈ confluence.graph.roots := by
    decide
  obtain ⟨g', hconnect⟩ : ∃ g', confluence.graph.connect "a" "b" = .ok ("6", g') := by
    use ⟨confluence.graph.nodes, confluence.graph.edges ++ [⟨"6", "a", "b"⟩]⟩
    cbv
  obtain ⟨hmem, -, hroot⟩ := standard.mem_order_connect_iff hreach hconnect ha
  obtain ⟨hlost, hreached⟩ := hroot _ hb rfl
  refine ⟨hreach, ha, g', hconnect, hb, hlost, hreached "b" .refl, (hmem "c").mpr (.inr ?_)⟩
  apply Relation.ReflTransGen.single
  exact ⟨⟨"2", "b", "c"⟩, by decide, rfl, rfl⟩

end Compiler

end TextPipeline
