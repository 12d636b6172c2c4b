import TextPipeline.Proofs.Pipeline.Renaming
import TextPipeline.Script.ExecutionOrder

/-!
# Walks in breadth

A walk only adds nodes at the end of its order, and visits nothing but nodes of the graph.  The
first node that it visits is the first root.  In a renamed graph it goes the same way under the
new names, so that the order depends on the names, the kinds and the edges only.
-/

namespace TextPipeline

/-! ### The node that an edge leads to -/

namespace Graph

variable {r : String → String} {g g' : Graph}

/-- The node that is found by an id is one of the graph and has the id. -/
theorem mem_of_lastNode? {id : String} {n : Node} (h : g.lastNode? id = some n) :
  n ∈ g.nodes ∧ n.id = id
  := by
  constructor
  · apply List.mem_reverse.mp (List.mem_of_find?_eq_some h)
  · simpa using List.find?_some h

/-- A node is found by an id exactly if the id is that of a node. -/
theorem isSome_lastNode?_iff {id : String} :
  (g.lastNode? id).isSome = true ↔ id ∈ g.ids
  := by
  simp [lastNode?, ids]

/-- A node is found by each id that the graph contains, and by no other one. -/
theorem isSome_lastNode? (g : Graph) (id : String) :
  (g.lastNode? id).isSome = g.contains id
  := by
  rw [Bool.eq_iff_iff, isSome_lastNode?_iff, contains_iff]

/-- The node that is found by a renamed id is the one that was found by the id, renamed. -/
theorem Renamed.lastNode?_eq (h : g.Renamed r g') {a : String} (ha : KeepsApart r g a) :
  (g'.lastNode? (r a)).map (Node.key id) = (g.lastNode? a).map (Node.key r)
  := by
  apply ha.find?_eq
  · rw [List.map_reverse, h.nodes, List.map_reverse]
  · intro n hn
    apply List.mem_reverse.mp hn

end Graph

namespace Tour

variable {r : String → String} {g g' : Graph} {t t' u : Tour}

/-! ### What a step does -/

/-- A step drops a node that has been visited from the front of the queue, or visits it. -/
theorem step_eq_some_iff :
  t.step g = some u
    ↔ ∃ n queue, t.queue = n :: queue ∧
        (t.visited n.id = true ∧ u = ⟨queue, t.order⟩ ∨
          t.visited n.id = false ∧ u = t.visit g n queue)
  := by
  rw [step]
  split
  · simp_all
  · next n queue hqueue =>
    simp only [hqueue, Option.some.injEq, List.cons.injEq]
    constructor
    · rintro rfl
      use n, queue, ⟨rfl, rfl⟩
      split <;> simp_all
    · rintro ⟨_, _, ⟨rfl, rfl⟩, ⟨hvisited, rfl⟩ | ⟨hnew, rfl⟩⟩
      · rw [if_pos hvisited]
      · rw [if_neg (by simp [hnew])]

/-- A walk that can go no step further has no node waiting, and is finished. -/
theorem finish_of_step_eq_none (h : t.step g = none) :
  t.queue = [] ∧ t.finish g = t.order
  := by
  constructor
  · rw [step] at h
    split at h
    · assumption
    · simp at h
  · rw [finish, h]

/-- A walk is finished as it is after its next step. -/
theorem finish_of_step_eq_some (h : t.step g = some u) :
  t.finish g = u.finish g
  := by
  rw [finish, h]

/-- What a step keeps, the walk keeps to its end. -/
theorem finish_induction {motive : Tour → Prop}
    (hstep : ∀ t u : Tour, motive t → t.step g = some u → motive u) (t : Tour) (h : motive t) :
  ∃ u : Tour, motive u ∧ u.queue = [] ∧ u.order = t.finish g
  := by
  fun_induction t.finish g with
  | case1 t hend => use t, h, (finish_of_step_eq_none hend).1
  | case2 t t' hnext ih => apply ih (hstep t t' h hnext)

/-- The nodes that have been visited stay at the front of the order. -/
theorem order_prefix_finish (g : Graph) (t : Tour) :
  t.order <+: t.finish g
  := by
  have hstep : ∀ s u : Tour, t.order <+: s.order → s.step g = some u → t.order <+: u.order := by
    intro s u hs hu
    obtain ⟨n, queue, -, ⟨-, rfl⟩ | ⟨-, rfl⟩⟩ := step_eq_some_iff.mp hu
    · apply hs
    · apply hs.trans (List.prefix_append _ _)
  obtain ⟨u, hprefix, -, horder⟩ := finish_induction hstep t (List.prefix_refl _)
  rw [← horder]
  apply hprefix

/-! ### What is visited -/

/-- All nodes of a walk are nodes of the graph. -/
structure Within (g : Graph) (t : Tour) : Prop where
  queue : ∀ n ∈ t.queue, n ∈ g.nodes
  order : ∀ n ∈ t.order, n ∈ g.nodes

theorem within_start (g : Graph) :
  (start g).Within g
  := by
  constructor
  · intro n hn
    apply List.mem_of_mem_filter hn
  · intro n hn
    apply absurd hn List.not_mem_nil

/-- A step stays within the graph. -/
theorem Within.step (h : t.Within g) (hu : t.step g = some u) :
  u.Within g
  := by
  obtain ⟨n, queue, hqueue, hcase⟩ := step_eq_some_iff.mp hu
  have hn : n ∈ g.nodes := h.queue n (by simp [hqueue])
  have hrest : ∀ m ∈ queue, m ∈ g.nodes := by
    intro m hm
    apply h.queue m
    simp [hqueue, hm]
  rcases hcase with ⟨-, rfl⟩ | ⟨-, rfl⟩
  · constructor
    · apply hrest
    · apply h.order
  · constructor
    · intro m hm
      rcases List.mem_append.mp hm with hm | hm
      · apply hrest m hm
      · obtain ⟨id, -, hid⟩ := List.mem_filterMap.mp hm
        apply (Graph.mem_of_lastNode? hid).1
    · intro m hm
      rcases List.mem_append.mp hm with hm | hm
      · apply h.order m hm
      · rw [List.mem_singleton.mp hm]
        apply hn

/-! ### Walks in renamed graphs -/

/-- The second walk is the first one under other names. -/
structure Renamed (r : String → String) (t t' : Tour) : Prop where
  queue : t'.queue.map (Node.key id) = t.queue.map (Node.key r)
  order : t'.order.map (Node.key id) = t.order.map (Node.key r)

/-- A renamed walk has visited the renamed nodes. -/
theorem Renamed.visited_eq (h : t.Renamed r t') (ht : ∀ n ∈ t.order, n ∈ g.nodes) {a : String}
    (ha : g.KeepsApart r a) :
  t'.visited (r a) = t.visited a
  := by
  have hview : ∀ t : Tour, t.visited (r a) = (t.order.map (Node.key id)).any (·.1 = r a) := by
    intro t
    rw [List.any_map]
    rfl
  rw [hview, h.order, List.any_map, visited, Bool.eq_iff_iff, List.any_eq_true, List.any_eq_true]
  apply exists_congr
  intro n
  apply and_congr_right
  intro hn
  simp only [Function.comp_apply, decide_eq_true_eq]
  apply ha.eq_iff (Graph.id_mem_names (ht n hn))

/-- A renamed node is visited like the node itself. -/
theorem Renamed.visit (hg : g.Renamed r g') (hr : g.names.InjOn r) (h : t.Renamed r t')
    (ht : t.Within g) {n n' : Node} (hn : n ∈ g.nodes) (hkey : n'.key id = n.key r)
    {queue queue' : List Node} (hqueue : queue'.map (Node.key id) = queue.map (Node.key r)) :
  (t.visit g n queue).Renamed r (t'.visit g' n' queue')
  := by
  have hnow : (⟨queue, t.order ++ [n]⟩ : Tour).Renamed r ⟨queue', t'.order ++ [n']⟩ := by
    constructor
    · apply hqueue
    · simp only [List.map_append, List.map_singleton, h.order, hkey]
  have hwithin : ∀ m ∈ t.order ++ [n], m ∈ g.nodes := by
    intro m hm
    rcases List.mem_append.mp hm with hm | hm
    · apply ht.order m hm
    · rw [List.mem_singleton.mp hm]
      apply hn
  have hid : n'.id = r n.id := congrArg Prod.fst hkey
  have hapart : ∀ a ∈ successors g.edges n.id, g.KeepsApart r a := by
    intro a ha
    apply Graph.keepsApart_of_injOn hr
    obtain ⟨e, he, -, rfl⟩ := mem_successors.mp ha
    apply Graph.target_mem_names he
  constructor
  · simp only [Tour.visit, List.map_append, hqueue, List.append_cancel_left_eq, List.map_filterMap]
    rw [hid, hg.successors_eq (Graph.keepsApart_of_injOn hr (Graph.id_mem_names hn)),
      List.filter_map, List.filterMap_map]
    have hfilter : (successors g.edges n.id).filter
          ((fun a => !(⟨queue', t'.order ++ [n']⟩ : Tour).visited a) ∘ r)
        = (successors g.edges n.id).filter
          fun a => !(⟨queue, t.order ++ [n]⟩ : Tour).visited a := by
      apply List.filter_congr
      intro a ha
      rw [Function.comp_apply, hnow.visited_eq hwithin (hapart a ha)]
    rw [hfilter]
    apply List.filterMap_congr
    intro a ha
    apply hg.lastNode?_eq (hapart a (List.mem_of_mem_filter ha))
  · apply hnow.order

/-- A step under other names leads to the same walk under other names. -/
theorem Renamed.step (hg : g.Renamed r g') (hr : g.names.InjOn r) (h : t.Renamed r t')
    (ht : t.Within g) (hu : t.step g = some u) :
  ∃ u', t'.step g' = some u' ∧ u.Renamed r u'
  := by
  obtain ⟨n, queue, hqueue, hcase⟩ := step_eq_some_iff.mp hu
  have hn : n ∈ g.nodes := ht.queue n (by simp [hqueue])
  have hview := h.queue
  rw [hqueue, List.map_cons] at hview
  obtain ⟨n', queue', hqueue', hkey, hrest⟩ := List.map_eq_cons_iff.mp hview
  have hid : n'.id = r n.id := congrArg Prod.fst hkey
  have hvisited : t'.visited n'.id = t.visited n.id := by
    rw [hid]
    apply h.visited_eq ht.order (Graph.keepsApart_of_injOn hr (Graph.id_mem_names hn))
  rcases hcase with ⟨hold, rfl⟩ | ⟨hnew, rfl⟩
  · use ⟨queue', t'.order⟩
    constructor
    · apply step_eq_some_iff.mpr ⟨n', queue', hqueue', .inl ⟨hvisited.trans hold, rfl⟩⟩
    · constructor
      · apply hrest
      · apply h.order
  · use t'.visit g' n' queue'
    constructor
    · apply step_eq_some_iff.mpr ⟨n', queue', hqueue', .inr ⟨hvisited.trans hnew, rfl⟩⟩
    · apply h.visit hg hr ht hn hkey hrest

/-- A walk that has come to its end has come to its end under other names. -/
theorem Renamed.step_eq_none (h : t.Renamed r t') (hend : t.step g = none) :
  t'.step g' = none
  := by
  have hview := h.queue
  rw [(finish_of_step_eq_none hend).1] at hview
  have hqueue : t'.queue = [] := by simpa using hview
  simp [Tour.step, hqueue]

/-- A walk under other names visits the same nodes under other names. -/
theorem Renamed.finish (hg : g.Renamed r g') (hr : g.names.InjOn r) (h : t.Renamed r t')
    (ht : t.Within g) :
  (t'.finish g').map (Node.key id) = (t.finish g).map (Node.key r)
  := by
  fun_induction t.finish g generalizing t' with
  | case1 t hend =>
    rw [(finish_of_step_eq_none (h.step_eq_none hend)).2]
    apply h.order
  | case2 t u hu ih =>
    obtain ⟨u', hu', hrenamed⟩ := h.step hg hr ht hu
    rw [finish_of_step_eq_some hu']
    apply ih hrenamed (ht.step hu)

end Tour

namespace Graph

variable {r : String → String} {g g' : Graph}

/-- A renamed node is a root of the renamed graph if the node is a root. -/
theorem Renamed.isRoot_eq (h : g.Renamed r g') (hr : g.names.InjOn r) {n n' : Node}
    (hn : n ∈ g.nodes) (hkey : n'.key id = n.key r) :
  g'.isRoot n' = g.isRoot n
  := by
  obtain ⟨hid, hkind⟩ := Prod.mk.inj hkey
  have hview : ∀ edges : List Edge,
      (edges.all fun e => decide (e.target ≠ n'.id) || !g'.contains e.source)
        = (edges.map (Edge.ends id)).all fun p => decide (p.2 ≠ n'.id) || !g'.contains p.1 := by
    intro edges
    rw [List.all_map]
    rfl
  rw [isRoot, isRoot, Node.isInput, Node.isInput, hkind, hview, h.edges, List.all_map]
  congr 1
  rw [Bool.eq_iff_iff, List.all_eq_true, List.all_eq_true]
  apply forall₂_congr
  intro e he
  have htarget := (keepsApart_of_injOn hr (id_mem_names hn)).eq_iff (target_mem_names he)
  have hsource := h.contains_eq (keepsApart_of_injOn hr (source_mem_names he))
  simp only [id_eq] at hid
  simp only [Function.comp_apply, Edge.ends, hid, hsource, ne_eq, htarget]

/-- Filters that do not tell apart what looks the same leave what looks the same. -/
theorem map_filter_congr {α β γ : Type} {view : α → γ} {view' : β → γ} {p : α → Bool}
    {q : β → Bool} {xs : List α} {ys : List β} (h : ys.map view' = xs.map view)
    (hpq : ∀ x ∈ xs, ∀ y, view' y = view x → q y = p x) :
  (ys.filter q).map view' = (xs.filter p).map view
  := by
  induction xs generalizing ys with
  | nil =>
    obtain rfl := List.map_eq_nil_iff.mp h
    rfl
  | cons x xs ih =>
    rw [List.map_cons] at h
    obtain ⟨y, ys, rfl, hyx, h⟩ := List.map_eq_cons_iff.mp h
    have hrest := ih h fun x' hx' => hpq x' (List.mem_cons_of_mem x hx')
    rw [List.filter_cons, List.filter_cons, hpq x List.mem_cons_self y hyx]
    split
    · rw [List.map_cons, List.map_cons, hyx, hrest]
    · apply hrest

/-- A renamed graph is walked in the same order, under the new names. -/
theorem Renamed.executionOrder_eq (h : g.Renamed r g') (hr : g.names.InjOn r) :
  g'.executionOrder.map (Node.key id) = g.executionOrder.map (Node.key r)
  := by
  apply Tour.Renamed.finish h hr _ (Tour.within_start g)
  constructor
  · apply map_filter_congr h.nodes
    intro n hn n' hkey
    apply h.isRoot_eq hr hn hkey
  · rfl

/-- A renamed graph visits nodes of the same kinds. -/
theorem Renamed.map_kind_executionOrder (h : g.Renamed r g') (hr : g.names.InjOn r) :
  g'.executionOrder.map (·.kind) = g.executionOrder.map (·.kind)
  := by
  have hkeys := congrArg (List.map Prod.snd) (h.executionOrder_eq hr)
  rw [List.map_map, List.map_map] at hkeys
  apply hkeys

/-- A renamed graph visits the nodes of the new names. -/
theorem Renamed.map_id_executionOrder (h : g.Renamed r g') (hr : g.names.InjOn r) :
  g'.executionOrder.map (·.id) = (g.executionOrder.map (·.id)).map r
  := by
  have hkeys := congrArg (List.map Prod.fst) (h.executionOrder_eq hr)
  rw [List.map_map, List.map_map] at hkeys
  rw [List.map_map]
  apply hkeys

/-- The first node of the order is the first root. -/
theorem head?_executionOrder (g : Graph) :
  g.executionOrder.head? = g.roots.head?
  := by
  cases hroots : g.roots with
  | nil =>
    have hend : (Tour.start g).step g = none := by simp [Tour.step, Tour.start, hroots]
    rw [executionOrder, (Tour.finish_of_step_eq_none hend).2]
    rfl
  | cons n rest =>
    have hstep : (Tour.start g).step g = some ((Tour.start g).visit g n rest) :=
      Tour.step_eq_some_iff.mpr ⟨n, rest, hroots, .inr ⟨rfl, rfl⟩⟩
    rw [executionOrder, Tour.finish_of_step_eq_some hstep]
    obtain ⟨more, hmore⟩ := Tour.order_prefix_finish g ((Tour.start g).visit g n rest)
    rw [← hmore]
    rfl

/-- A root of a valid graph is an input that no edge leads to. -/
theorem Valid.isRoot_iff (h : g.Valid) {n : Node} :
  g.isRoot n = true ↔ n.kind = inputKind ∧ ∀ e ∈ g.edges, e.target ≠ n.id
  := by
  simp only [isRoot, Node.isInput, Bool.and_eq_true, decide_eq_true_eq, List.all_eq_true,
    Bool.or_eq_true, Bool.not_eq_true']
  apply and_congr_right
  intro _
  apply forall₂_congr
  intro e he
  have hsource := contains_iff.mpr (h.attached e he).1
  simp [hsource]

/-- The first node of the order of a valid graph is its first input that no edge leads to. -/
theorem Valid.head?_executionOrder (h : g.Valid) :
  g.executionOrder.head?
    = g.nodes.find? fun n => n.kind = inputKind ∧ ∀ e ∈ g.edges, e.target ≠ n.id
  := by
  rw [Graph.head?_executionOrder, roots, List.head?_filter]
  congr 1
  funext n
  rw [Bool.eq_iff_iff, h.isRoot_iff, decide_eq_true_eq]

end Graph

end TextPipeline
