import TextPipeline.Pipeline.Load
import TextPipeline.Proofs.Pipeline.Validity

/-!
# Graphs of documents

A document is loaded exactly when it is a valid graph as it stands, and then it is that graph.
Otherwise the error is about the first violation: about the first node whose id was taken, or else
about the edge that ends the shortest invalid front of the list of the edges.  Validity does not
look at the order of the edges, and so the order does not decide whether a document is loaded.
-/

namespace TextPipeline

open Relation

/-- The nodes and the edges of a document as a graph, whether valid or not. -/
def Document.graph (d : Document) : Graph :=
  ⟨d.nodes, d.edges⟩

/-- The error that stands against one more edge `e` of a graph. -/
inductive Objection (g : Graph) (e : Edge) : GraphError → Prop where
  | source (h : e.source ∉ g.ids) : Objection g e (.nodeNotFound e.source)
  | target (hsource : e.source ∈ g.ids) (h : e.target ∉ g.ids) :
      Objection g e (.nodeNotFound e.target)
  | selfLoop (hsource : e.source ∈ g.ids) (htarget : e.target ∈ g.ids)
      (h : e.source = e.target) :
      Objection g e (.rejected e.source e.target .selfLoop)
  | duplicate (hsource : e.source ∈ g.ids) (htarget : e.target ∈ g.ids)
      (hends : e.source ≠ e.target) (h : Linked g.edges e.source e.target) :
      Objection g e (.rejected e.source e.target .duplicate)
  | cycle (hsource : e.source ∈ g.ids) (htarget : e.target ∈ g.ids)
      (hends : e.source ≠ e.target) (hnew : ¬ Linked g.edges e.source e.target)
      (h : ¬ Acyclic (g.edges ++ [e])) :
      Objection g e (.rejected e.source e.target .cycle)

/-- The error about the first violation in a document. -/
inductive Document.FirstViolation (d : Document) : GraphError → Prop where
  /-- The ids before the node are distinct, and its own is one of them. -/
  | node {front back : List Node} {n : Node} (hd : d.nodes = front ++ n :: back)
      (hfront : (front.map (·.id)).Nodup) (h : n.id ∈ front.map (·.id)) :
      FirstViolation d (.duplicateNode n.id)
  /-- The edges before the edge make a valid graph, and with the edge they do not. -/
  | edge {front back : List Edge} {e : Edge} {cause : GraphError}
      (hnodes : (d.nodes.map (·.id)).Nodup) (hd : d.edges = front ++ e :: back)
      (hfront : (⟨d.nodes, front⟩ : Graph).Valid)
      (hinvalid : ¬ (⟨d.nodes, front ++ [e]⟩ : Graph).Valid)
      (h : Objection ⟨d.nodes, front⟩ e cause) :
      FirstViolation d cause

namespace Graph

variable {g g' : Graph}

/-! ### One edge -/

/-- Adding an edge to a valid graph fails with the error that stands against it. -/
theorem Valid.addEdge_eq_error_iff (h : g.Valid) {e : Edge} {cause : GraphError} :
  g.addEdge e = .error cause ↔ Objection g e cause
  := by
  have hcycle : closesCycle g.edges e.source e.target = true ↔ ¬ Acyclic (g.edges ++ [e]) := by
    rw [h.acyclic.closesCycle_iff, acyclic_append_singleton]
    simp [h.acyclic]
  rw [Graph.addEdge_eq_error_iff]
  constructor
  · intro hcause
    by_cases hsource : e.source ∈ g.ids
    · by_cases htarget : e.target ∈ g.ids
      · rw [refusal?_of_mem hsource htarget] at hcause
        obtain ⟨reason, hverdict, rfl⟩ := Option.map_eq_some_iff.mp hcause
        cases checkConnection_eq_iff.mp hverdict with
        | selfLoop h => exact .selfLoop hsource htarget h
        | duplicate hends h => exact .duplicate hsource htarget hends h
        | cycle hends hnew h => exact .cycle hsource htarget hends hnew (hcycle.mp h)
      · rw [refusal?_of_target hsource htarget] at hcause
        obtain rfl := Option.some.inj hcause
        exact .target hsource htarget
    · rw [refusal?_of_source hsource] at hcause
      obtain rfl := Option.some.inj hcause
      exact .source hsource
  · intro hcause
    cases hcause with
    | source h => apply refusal?_of_source h
    | target hsource h => apply refusal?_of_target hsource h
    | selfLoop hsource htarget h =>
      rw [refusal?_of_mem hsource htarget, checkConnection_eq_iff.mpr (.selfLoop h)]
      rfl
    | duplicate hsource htarget hends h =>
      rw [refusal?_of_mem hsource htarget, checkConnection_eq_iff.mpr (.duplicate hends h)]
      rfl
    | cycle hsource htarget hends hnew h =>
      rw [refusal?_of_mem hsource htarget,
        checkConnection_eq_iff.mpr (.cycle hends hnew (hcycle.mpr h))]
      rfl

/-- What stands against an edge makes the graph with it invalid. -/
theorem Valid.not_valid_of_objection (h : g.Valid) {e : Edge} {cause : GraphError}
    (hcause : Objection g e cause) :
  ¬ (⟨g.nodes, g.edges ++ [e]⟩ : Graph).Valid
  := by
  intro hvalid
  have hok := addEdge_eq_ok_iff.mpr ⟨h.refusal?_eq_none_iff.mpr hvalid, rfl⟩
  rw [h.addEdge_eq_error_iff.mpr hcause] at hok
  simp at hok

/-- Adding a node fails when its id is taken. -/
theorem addNode_eq_error_iff {n : Node} {cause : GraphError} :
  g.addNode n = .error cause ↔ n.id ∈ g.ids ∧ cause = .duplicateNode n.id
  := by
  rw [addNode, ← contains_iff]
  split
  · next htaken =>
    rw [Except.error.injEq, eq_comm]
    simp [htaken]
  · next hfresh => simp [hfresh]

/-! ### Lists of nodes and edges -/

/-- Nodes are added one after the other exactly when all ids are distinct. -/
theorem foldlM_addNode_eq_ok_iff (h : g.ids.Nodup) (nodes : List Node) :
  nodes.foldlM addNode g = .ok g'
    ↔ (g.ids ++ nodes.map (·.id)).Nodup ∧ g' = ⟨g.nodes ++ nodes, g.edges⟩
  := by
  induction nodes generalizing g with
  | nil => simp [h, pure, Except.pure, eq_comm]
  | cons n nodes ih =>
    rw [List.foldlM_cons]
    cases hadd : g.addNode n with
    | error cause =>
      simp only [bind, Except.bind, reduceCtorEq, false_iff, not_and]
      intro hdistinct
      have hok := addNode_eq_ok_iff.mpr (And.intro (a := n.id ∉ g.ids) ?_ rfl)
      · rw [hadd] at hok
        simp at hok
      · intro htaken
        apply (List.nodup_append.mp hdistinct).2.2 _ htaken _ List.mem_cons_self rfl
    | ok mid =>
      obtain ⟨hfresh, rfl⟩ := addNode_eq_ok_iff.mp hadd
      have hids : (⟨g.nodes ++ [n], g.edges⟩ : Graph).ids = g.ids ++ [n.id] := by
        simp [ids]
      simp only [bind, Except.bind]
      rw [ih, hids]
      · simp
      · rw [hids, ← List.concat_eq_append]
        apply h.concat hfresh

/-- Edges are added to a valid graph one after the other exactly when it is valid with all of
them. -/
theorem Valid.foldlM_addEdge_eq_ok_iff (h : g.Valid) (edges : List Edge) :
  edges.foldlM Graph.addEdge g = .ok g'
    ↔ (⟨g.nodes, g.edges ++ edges⟩ : Graph).Valid ∧ g' = ⟨g.nodes, g.edges ++ edges⟩
  := by
  induction edges generalizing g with
  | nil => simp [h, pure, Except.pure, eq_comm]
  | cons e edges ih =>
    rw [List.foldlM_cons, List.append_cons]
    cases hadd : g.addEdge e with
    | error cause =>
      simp only [bind, Except.bind, reduceCtorEq, false_iff, not_and]
      intro hvalid
      have hfront := hvalid.of_sublist (List.sublist_append_left (g.edges ++ [e]) edges)
      have hok := addEdge_eq_ok_iff.mpr ⟨h.refusal?_eq_none_iff.mpr hfront, rfl⟩
      rw [hadd] at hok
      simp at hok
    | ok mid =>
      have hmid := h.addEdge hadd
      obtain ⟨-, rfl⟩ := addEdge_eq_ok_iff.mp hadd
      simp only [bind, Except.bind]
      apply ih hmid

/-- Going through a list fails where the first member fails after those before it have passed. -/
theorem foldlM_eq_error_iff {σ α ε : Type} {f : σ → α → Except ε σ} {s : σ} {xs : List α}
    {cause : ε} :
  xs.foldlM f s = .error cause
    ↔ ∃ front x back t, xs = front ++ x :: back ∧ front.foldlM f s = .ok t ∧
        f t x = .error cause
  := by
  induction xs generalizing s with
  | nil => simp [pure, Except.pure]
  | cons y xs ih =>
    rw [List.foldlM_cons]
    cases hy : f s y with
    | error cause' =>
      simp only [bind, Except.bind]
      constructor
      · intro h
        use [], y, xs, s, rfl, rfl
        rw [hy, ← h]
      · rintro ⟨front, x, back, t, hxs, hfront, hx⟩
        cases front with
        | nil =>
          obtain ⟨rfl, -⟩ := List.cons.inj hxs
          obtain rfl := Except.ok.inj hfront
          rw [← hx, hy]
        | cons z front =>
          obtain ⟨rfl, -⟩ := List.cons.inj hxs
          simp [List.foldlM_cons, hy, bind, Except.bind] at hfront
    | ok s' =>
      simp only [bind, Except.bind, ih]
      constructor
      · rintro ⟨front, x, back, t, rfl, hfront, hx⟩
        use y :: front, x, back, t, rfl, ?_, hx
        rw [List.foldlM_cons, hy]
        apply hfront
      · rintro ⟨front, x, back, t, hxs, hfront, hx⟩
        cases front with
        | nil =>
          obtain ⟨rfl, -⟩ := List.cons.inj hxs
          obtain rfl := Except.ok.inj hfront
          rw [hy] at hx
          simp at hx
        | cons z front =>
          obtain ⟨rfl, rfl⟩ := List.cons.inj hxs
          rw [List.foldlM_cons, hy] at hfront
          use front, x, back, t, rfl, hfront, hx

/-- The nodes alone make a graph exactly when their ids are distinct. -/
theorem foldlM_addNode_empty_eq_ok_iff {nodes : List Node} :
  nodes.foldlM addNode empty = .ok g ↔ (nodes.map (·.id)).Nodup ∧ g = ⟨nodes, []⟩
  := by
  apply foldlM_addNode_eq_ok_iff
  apply valid_empty.distinct

/-- The nodes alone fail to make a graph at the first one whose id was taken. -/
theorem foldlM_addNode_empty_eq_error_iff {nodes : List Node} {cause : GraphError} :
  nodes.foldlM addNode empty = .error cause
    ↔ ∃ front n back, nodes = front ++ n :: back ∧ (front.map (·.id)).Nodup ∧
        n.id ∈ front.map (·.id) ∧ cause = .duplicateNode n.id
  := by
  rw [foldlM_eq_error_iff]
  constructor
  · rintro ⟨front, n, back, mid, hnodes, hfront, hn⟩
    obtain ⟨hdistinct, rfl⟩ := foldlM_addNode_empty_eq_ok_iff.mp hfront
    obtain ⟨htaken, hcause⟩ := addNode_eq_error_iff.mp hn
    use front, n, back, hnodes, hdistinct, htaken, hcause
  · rintro ⟨front, n, back, hnodes, hdistinct, htaken, hcause⟩
    use front, n, back, ⟨front, []⟩, hnodes
    constructor
    · apply foldlM_addNode_empty_eq_ok_iff.mpr ⟨hdistinct, rfl⟩
    · apply addNode_eq_error_iff.mpr ⟨htaken, hcause⟩

/-- Adding edges to a valid graph fails at the first one that something stands against. -/
theorem Valid.foldlM_addEdge_eq_error_iff (h : g.Valid) {edges : List Edge} {cause : GraphError} :
  edges.foldlM Graph.addEdge g = .error cause
    ↔ ∃ front e back, edges = front ++ e :: back ∧
        (⟨g.nodes, g.edges ++ front⟩ : Graph).Valid ∧
        Objection ⟨g.nodes, g.edges ++ front⟩ e cause
  := by
  rw [foldlM_eq_error_iff]
  constructor
  · rintro ⟨front, e, back, mid, hedges, hfront, he⟩
    obtain ⟨hvalid, rfl⟩ := (h.foldlM_addEdge_eq_ok_iff front).mp hfront
    use front, e, back, hedges, hvalid, hvalid.addEdge_eq_error_iff.mp he
  · rintro ⟨front, e, back, hedges, hvalid, hcause⟩
    use front, e, back, ⟨g.nodes, g.edges ++ front⟩, hedges
    constructor
    · apply (h.foldlM_addEdge_eq_ok_iff front).mpr ⟨hvalid, rfl⟩
    · apply hvalid.addEdge_eq_error_iff.mpr hcause

/-! ### Whole documents -/

/-- The edges of a document are added if all its nodes could be. -/
theorem ofDocument_eq {d : Document} :
  ofDocument d
    = match d.nodes.foldlM addNode empty with
      | .error cause => .error cause
      | .ok mid => d.edges.foldlM addEdge mid
  := by
  rw [ofDocument]
  cases d.nodes.foldlM addNode empty <;> rfl

/-- A document is loaded exactly when it is a valid graph as it stands. -/
theorem ofDocument_eq_ok_iff {d : Document} :
  ofDocument d = .ok g ↔ d.graph.Valid ∧ g = d.graph
  := by
  rw [ofDocument_eq]
  split
  · next cause hnodes =>
    simp only [reduceCtorEq, false_iff, not_and]
    intro hvalid
    have hdistinct : (d.nodes.map (·.id)).Nodup := hvalid.distinct
    have hok := foldlM_addNode_empty_eq_ok_iff.mpr ⟨hdistinct, rfl⟩
    rw [hnodes] at hok
    simp at hok
  · next mid hnodes =>
    obtain ⟨hdistinct, rfl⟩ := foldlM_addNode_empty_eq_ok_iff.mp hnodes
    apply (valid_of_nodes hdistinct).foldlM_addEdge_eq_ok_iff

/-- A document is refused with the error about its first violation. -/
theorem ofDocument_eq_error_iff {d : Document} {cause : GraphError} :
  ofDocument d = .error cause ↔ d.FirstViolation cause
  := by
  rw [ofDocument_eq]
  constructor
  · intro h
    split at h
    · next cause' hnodes =>
      obtain rfl := Except.error.inj h
      obtain ⟨front, n, back, hd, hfront, htaken, rfl⟩ :=
        foldlM_addNode_empty_eq_error_iff.mp hnodes
      apply Document.FirstViolation.node hd hfront htaken
    · next mid hnodes =>
      obtain ⟨hdistinct, rfl⟩ := foldlM_addNode_empty_eq_ok_iff.mp hnodes
      obtain ⟨front, e, back, hd, hfront, hcause⟩ :=
        (valid_of_nodes hdistinct).foldlM_addEdge_eq_error_iff.mp h
      apply Document.FirstViolation.edge hdistinct hd hfront _ hcause
      apply hfront.not_valid_of_objection hcause
  · intro h
    cases h with
    | node hd hfront htaken =>
      rw [foldlM_addNode_empty_eq_error_iff.mpr ⟨_, _, _, hd, hfront, htaken, rfl⟩]
    | edge hdistinct hd hfront _ hcause =>
      rw [foldlM_addNode_empty_eq_ok_iff.mpr ⟨hdistinct, rfl⟩]
      apply (valid_of_nodes hdistinct).foldlM_addEdge_eq_error_iff.mpr
      exact ⟨_, _, _, hd, hfront, hcause⟩

/-- The order of the edges does not matter to the validity of a graph. -/
theorem valid_iff_of_perm {nodes : List Node} {edges edges' : List Edge}
    (h : edges.Perm edges') :
  (⟨nodes, edges⟩ : Graph).Valid ↔ (⟨nodes, edges'⟩ : Graph).Valid
  := by
  constructor
  · intro hvalid
    apply hvalid.of_perm h.symm
  · intro hvalid
    apply hvalid.of_perm h

/-- A document is loaded exactly when it is a valid graph, and then it is that graph, nodes and
edges being as they are in the document.  Otherwise the error is about the first violation.
Whether a document is loaded does not depend on the order of its edges. -/
theorem ofDocument_outcome (d : Document) :
  (∀ g, ofDocument d = .ok g ↔ d.graph.Valid ∧ g = d.graph) ∧
    (∀ cause, ofDocument d = .error cause ↔ d.FirstViolation cause) ∧
    ∀ edges, edges.Perm d.edges →
      ((∃ g, ofDocument ⟨d.nodes, edges⟩ = .ok g) ↔ ∃ g, ofDocument d = .ok g)
  := by
  refine ⟨fun g => ofDocument_eq_ok_iff, fun cause => ofDocument_eq_error_iff, ?_⟩
  intro edges h
  simp only [ofDocument_eq_ok_iff, exists_and_left, exists_eq, and_true]
  apply valid_iff_of_perm h

/-- Two edges that follow each other are loaded in the other order too. -/
theorem exists_ofDocument_swapped :
  [Edge.mk "2" "b" "c", ⟨"1", "a", "b"⟩].Perm [⟨"1", "a", "b"⟩, ⟨"2", "b", "c"⟩] ∧
    ∃ g, ofDocument ⟨[.plain "a" "stemming", .plain "b" "stemming", .plain "c" "stemming"],
      [⟨"2", "b", "c"⟩, ⟨"1", "a", "b"⟩]⟩ = .ok g
  := by
  constructor
  · apply List.Perm.swap
  · apply ((ofDocument_outcome ⟨_, [⟨"1", "a", "b"⟩, ⟨"2", "b", "c"⟩]⟩).2.2 _
      (List.Perm.swap ..)).mpr
    use ⟨[.plain "a" "stemming", .plain "b" "stemming", .plain "c" "stemming"],
      [⟨"1", "a", "b"⟩, ⟨"2", "b", "c"⟩]⟩
    cbv

end Graph

end TextPipeline
