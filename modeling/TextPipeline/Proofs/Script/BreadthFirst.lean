import Mathlib.Order.Lattice.Nat
import TextPipeline.Proofs.Script.VisitingInTurn

/-!
# The order of a walk in breadth

The roots are visited first, the distance from the roots never decreases along the order, and of two
other nodes the one is visited first whose earliest visited predecessor was visited first, or whose
edge from it comes first if they have that predecessor in common.  The last is read off the list of
the offered nodes, and from it follows that no path to a node is shorter than those to the nodes in
front of it.  No other order has these properties: where two orders part, the places and the edges
from which the next node is reached lie in their common front, and they tell which node is next.
-/

namespace TextPipeline

/-! ### Where a node is reached first -/

/-- The earliest visited predecessor of `b` is `a`, and the edge from `a` to `b` has the index
`i`. -/
structure ReachedFrom (edges : List Edge) (order : List String) (a : String) (i : Nat)
    (b : String) : Prop where
  visited : a ∈ order
  edge : ∃ e, edges[i]? = some e ∧ e.source = a ∧ e.target = b
  earliest : ∀ c ∈ order, Linked edges c b → order.idxOf a ≤ order.idxOf c

namespace ReachedFrom

variable {edges : List Edge} {roots order : List String} {a b c d : String} {i j : Nat}

/-- There is an edge from the earliest visited predecessor. -/
theorem linked (h : ReachedFrom edges order a i b) :
  Linked edges a b
  := by
  obtain ⟨e, he, hsource, htarget⟩ := h.edge
  use e, List.mem_of_getElem? he, hsource, htarget

/-- A node with a visited predecessor has an earliest one. -/
theorem exists_of_linked (ha : a ∈ order) (hab : Linked edges a b) :
  ∃ c i, ReachedFrom edges order c i b
  := by
  obtain ⟨c, ⟨hc, hlink⟩, hleast⟩ := (measure order.idxOf).wf.has_min
    {c | c ∈ order ∧ Linked edges c b} ⟨a, ha, hab⟩
  obtain ⟨e, he, hsource, htarget⟩ := hlink
  obtain ⟨i, hi⟩ := List.mem_iff_getElem?.mp he
  use c, i, hc, ⟨e, hi, hsource, htarget⟩
  intro d hd hdb
  apply Nat.le_of_not_lt
  apply hleast d ⟨hd, hdb⟩

/-- No node in front of the place a node is reached from offers it. -/
theorem notMem_offered (h : ReachedFrom edges order a i b) :
  b ∉ (order.take (order.idxOf a)).flatMap (successors edges)
  := by
  intro hmem
  obtain ⟨c, hc, hcb⟩ := List.mem_flatMap.mp hmem
  have hcorder := List.mem_of_mem_take hc
  have hlt := (List.mem_take_iff_idxOf_lt hcorder).mp hc
  have hle := h.earliest c hcorder (mem_successors.mp hcb)
  omega

/-- Of two nodes that are reached from different places, the one reached earlier is offered
earlier. -/
theorem idxOf_lt_of_idxOf_lt (hb : ReachedFrom edges order a i b)
    (hd : ReachedFrom edges order c j d) (hac : order.idxOf a < order.idxOf c) :
  (order.flatMap (successors edges)).idxOf b < (order.flatMap (successors edges)).idxOf d
  := by
  apply Compiler.idxOf_lt_of_prefix ((List.take_prefix (order.idxOf c) order).flatMap _)
  · apply List.mem_flatMap.mpr
    use a, (List.mem_take_iff_idxOf_lt hb.visited).mpr hac, mem_successors.mpr hb.linked
  · apply hd.notMem_offered

/-- Among edges that do not repeat each other, an edge does not link what a later one links. -/
theorem not_linked_take {e : Edge}
    (hsimple : (edges.map fun e => (e.source, e.target)).Nodup) (hj : edges[j]? = some e) :
  ¬ Linked (edges.take j) e.source e.target
  := by
  rintro ⟨e', he', hsource, htarget⟩
  obtain ⟨k, hk, hget⟩ := List.mem_take_iff_getElem.mp he'
  have hends : (edges.map fun e => (e.source, e.target))[k]?
      = (edges.map fun e => (e.source, e.target))[j]? := by
    rw [List.getElem?_map, List.getElem?_map, hj, List.getElem?_eq_getElem (by omega), hget]
    simp [hsource, htarget]
  have hkj := (List.getElem?_inj (by simp; omega) hsimple).mp hends
  omega

/-- Of two nodes that are reached from the same place, the one reached by an earlier edge is
offered earlier. -/
theorem idxOf_lt_of_lt (hsimple : (edges.map fun e => (e.source, e.target)).Nodup)
    (hb : ReachedFrom edges order a i b) (hd : ReachedFrom edges order a j d) (hij : i < j) :
  (order.flatMap (successors edges)).idxOf b < (order.flatMap (successors edges)).idxOf d
  := by
  obtain ⟨e, he, rfl, rfl⟩ := hb.edge
  obtain ⟨e', he', hsource, rfl⟩ := hd.edge
  let front := (order.take (order.idxOf e.source)).flatMap (successors edges)
  have hprefix : front ++ successors (edges.take j) e.source
      <+: order.flatMap (successors edges) := by
    have htake := (List.take_prefix (order.idxOf e.source + 1) order).flatMap (successors edges)
    rw [List.take_add_one, List.getElem?_idxOf hb.visited, List.flatMap_append] at htake
    apply List.IsPrefix.trans _ htake
    rw [Option.toList_some, List.flatMap_singleton, List.prefix_append_right_inj]
    apply ((List.take_prefix j edges).filter _).map
  apply Compiler.idxOf_lt_of_prefix hprefix
  · apply List.mem_append_right
    apply mem_successors.mpr
    use e
    refine ⟨?_, rfl, rfl⟩
    apply List.mem_of_getElem? (i := i)
    rw [List.getElem?_take_of_lt hij, he]
  · intro hmem
    obtain hmem | hmem := List.mem_append.mp hmem
    · apply hd.notMem_offered hmem
    · rw [← hsource] at hmem
      apply not_linked_take hsimple he' (mem_successors.mp hmem)

/-- What is reached from a place in the front of an order is reached from there in any order with
that front. -/
theorem of_take_eq {order' : List String} {k : Nat} (h : ReachedFrom edges order a i b)
    (htake : order.take k = order'.take k) (ha : a ∈ order.take k) :
  ReachedFrom edges order' a i b
  := by
  constructor
  · rw [htake] at ha
    apply List.mem_of_mem_take ha
  · apply h.edge
  · intro c hc hlink
    by_contra hlt
    have hplace := Compiler.idxOf_eq_of_mem_take htake ha
    have hak := (List.mem_take_iff_idxOf_lt h.visited).mp ha
    have hcfront : c ∈ order'.take k := (List.mem_take_iff_idxOf_lt hc).mpr (by omega)
    have hcplace := Compiler.idxOf_eq_of_mem_take htake.symm hcfront
    rw [← htake] at hcfront
    have := h.earliest c (List.mem_of_mem_take hcfront) hlink
    omega

end ReachedFrom

/-! ### Distances -/

/-- A path of `k` edges leads from one node to the other. -/
inductive Steps (edges : List Edge) (a : String) : Nat → String → Prop where
  | refl : Steps edges a 0 a
  | tail {k : Nat} {b c : String} (h : Steps edges a k b) (hlink : Linked edges b c) :
      Steps edges a (k + 1) c

/-- A path has some number of edges. -/
theorem exists_steps_of_reaches {edges : List Edge} {a b : String} (h : Reaches edges a b) :
  ∃ k, Steps edges a k b
  := by
  induction h with
  | refl => exact ⟨0, .refl⟩
  | tail _ hlink ih =>
    obtain ⟨k, hk⟩ := ih
    use k + 1, hk.tail hlink

/-- A path with some number of edges is a path. -/
theorem Steps.reaches {edges : List Edge} {a b : String} {k : Nat} (h : Steps edges a k b) :
  Reaches edges a b
  := by
  induction h with
  | refl => apply Relation.ReflTransGen.refl
  | tail _ hlink ih => apply Relation.ReflTransGen.tail ih hlink

namespace Graph

variable {g : Graph} {order : List String} {a b : String}

/-- A path of `k` edges leads from some root to the node of a given id. -/
def StepsFromRoot (g : Graph) (k : Nat) (id : String) : Prop :=
  ∃ root ∈ g.roots, Steps g.edges root.id k id

/-- The least number of edges on a path from a root to the node of a given id. -/
noncomputable def distance (g : Graph) (id : String) : Nat :=
  sInf {k | g.StepsFromRoot k id}

/-- The order has the properties of a walk in breadth: the ids of the nodes that come from a root,
each once, the roots in front, no node behind one that is farther from the roots, and of two nodes
that are no roots the one in front that is reached from the earlier place, or from the same place by
the earlier edge. -/
structure BreadthFirst (g : Graph) (order : List String) : Prop where
  distinct : order.Nodup
  visited : ∀ id, id ∈ order ↔ g.FromRoot id
  roots : g.rootIds <+: order
  distance : order.Pairwise fun a b => g.distance a ≤ g.distance b
  ties : ∀ b ∈ order, ∀ d ∈ order, b ∉ g.rootIds → d ∉ g.rootIds → b ≠ d → ∀ a c i j,
    ReachedFrom g.edges order a i b → ReachedFrom g.edges order c j d →
      (order.idxOf b < order.idxOf d
        ↔ order.idxOf a < order.idxOf c ∨ order.idxOf a = order.idxOf c ∧ i < j)

/-! ### The properties of the order -/

/-- A visited node that is no root is reached from some place. -/
theorem exists_reachedFrom (hb : g.FromRoot b) (hroot : b ∉ g.rootIds)
    (hvisited : ∀ id, id ∈ order ↔ g.FromRoot id) :
  ∃ a i, ReachedFrom g.edges order a i b
  := by
  obtain ⟨root, hmem, hreach⟩ := hb
  obtain rfl | ⟨a, ha, hab⟩ := Relation.ReflTransGen.cases_tail hreach
  · apply absurd (List.mem_map_of_mem hmem) hroot
  · apply ReachedFrom.exists_of_linked _ hab
    apply (hvisited a).mpr ⟨root, hmem, ha⟩

/-- Of two nodes that are no roots, the one that is reached from the earlier place comes first, or
the one that is reached by the earlier edge from the same place. -/
theorem Valid.idxOf_lt_of_reachedFrom (h : g.Valid) {c d : String} {i j : Nat}
    (hb : b ∉ g.rootIds) (hd : d ∉ g.rootIds)
    (hfrom : ReachedFrom g.edges g.visitedIds a i b)
    (hfrom' : ReachedFrom g.edges g.visitedIds c j d)
    (hearlier : g.visitedIds.idxOf a < g.visitedIds.idxOf c ∨
      g.visitedIds.idxOf a = g.visitedIds.idxOf c ∧ i < j) :
  g.visitedIds.idxOf b < g.visitedIds.idxOf d
  := by
  have hoffered : (g.visitedIds.flatMap (successors g.edges)).idxOf b
      < (g.visitedIds.flatMap (successors g.edges)).idxOf d := by
    obtain hlt | ⟨heq, hlt⟩ := hearlier
    · apply hfrom.idxOf_lt_of_idxOf_lt hfrom' hlt
    · obtain rfl := (List.idxOf_inj hfrom.visited).mp heq
      apply hfrom.idxOf_lt_of_lt h.simple hfrom' hlt
  have hlt : (g.rootIds ++ g.visitedIds.flatMap (successors g.edges)).idxOf b
      < (g.rootIds ++ g.visitedIds.flatMap (successors g.edges)).idxOf d := by
    rw [List.idxOf_append_of_notMem hb, List.idxOf_append_of_notMem hd]
    omega
  have hfirst := Compiler.idxOf_firstOccurrences_lt hlt
  rw [← h.visitedIds_eq] at hfirst
  apply hfirst

/-- Which of two nodes that are no roots comes first is told by the places and the edges from which
they are reached. -/
theorem Valid.idxOf_lt_iff (h : g.Valid) {c d : String} {i j : Nat}
    (hb : b ∉ g.rootIds) (hd : d ∉ g.rootIds) (hbd : b ≠ d)
    (hfrom : ReachedFrom g.edges g.visitedIds a i b)
    (hfrom' : ReachedFrom g.edges g.visitedIds c j d) :
  g.visitedIds.idxOf b < g.visitedIds.idxOf d
    ↔ g.visitedIds.idxOf a < g.visitedIds.idxOf c ∨
      g.visitedIds.idxOf a = g.visitedIds.idxOf c ∧ i < j
  := by
  constructor
  · intro hlt
    by_contra hnot
    -- Two nodes are not reached by the same edge, and so the other one would come first.
    have hij : i ≠ j := by
      rintro rfl
      obtain ⟨e, he, -, rfl⟩ := hfrom.edge
      obtain ⟨e', he', -, rfl⟩ := hfrom'.edge
      rw [he, Option.some.injEq] at he'
      apply hbd
      rw [he']
    have := h.idxOf_lt_of_reachedFrom hd hb hfrom' hfrom (by omega)
    omega
  · apply h.idxOf_lt_of_reachedFrom hb hd hfrom hfrom'

/-- A root is at the end of a path without edges. -/
theorem stepsFromRoot_of_mem_rootIds (ha : a ∈ g.rootIds) :
  g.StepsFromRoot 0 a
  := by
  obtain ⟨root, hroot, rfl⟩ := List.mem_map.mp ha
  use root, hroot, .refl

/-- A path from a root goes on along an edge. -/
theorem StepsFromRoot.tail {k : Nat} (h : g.StepsFromRoot k a) (hlink : Linked g.edges a b) :
  g.StepsFromRoot (k + 1) b
  := by
  obtain ⟨root, hroot, hsteps⟩ := h
  use root, hroot, hsteps.tail hlink

/-- A node that comes from a root is at the end of a path as long as its distance. -/
theorem FromRoot.stepsFromRoot_distance (h : g.FromRoot a) :
  g.StepsFromRoot (g.distance a) a
  := by
  obtain ⟨root, hroot, hreach⟩ := h
  obtain ⟨k, hk⟩ := exists_steps_of_reaches hreach
  apply Nat.sInf_mem (s := {k | g.StepsFromRoot k a})
  use k, root, hroot, hk

/-- A path from a root is at least as long as the distance. -/
theorem StepsFromRoot.distance_le {k : Nat} (h : g.StepsFromRoot k a) :
  g.distance a ≤ k
  := Nat.sInf_le h

/-- Of two nodes that are no roots, the one in front is not reached from a later place. -/
theorem Valid.idxOf_le_of_reachedFrom (h : g.Valid) {c d : String} {i j : Nat}
    (hbmem : b ∈ g.visitedIds) (hb : b ∉ g.rootIds) (hd : d ∉ g.rootIds)
    (hfrom : ReachedFrom g.edges g.visitedIds a i b)
    (hfrom' : ReachedFrom g.edges g.visitedIds c j d)
    (hle : g.visitedIds.idxOf b ≤ g.visitedIds.idxOf d) :
  g.visitedIds.idxOf a ≤ g.visitedIds.idxOf c
  := by
  obtain hlt | heq := Nat.lt_or_eq_of_le hle
  · have hbd : b ≠ d := by
      rintro rfl
      apply Nat.lt_irrefl _ hlt
    have := (h.idxOf_lt_iff hb hd hbd hfrom hfrom').mp hlt
    omega
  · obtain rfl := (List.idxOf_inj hbmem).mp heq
    apply hfrom.earliest c hfrom'.visited hfrom'.linked

/-- Only roots are in front of a root. -/
theorem Valid.mem_rootIds_of_idxOf_le (h : g.Valid) (hb : b ∈ g.rootIds)
    (hle : g.visitedIds.idxOf a ≤ g.visitedIds.idxOf b) :
  a ∈ g.rootIds
  := by
  by_contra ha
  have := Compiler.idxOf_lt_of_prefix h.prefix_visitedIds hb ha
  omega

/-- The nodes of the order of a valid graph are those that come from a root. -/
theorem Valid.mem_visitedIds_iff (h : g.Valid) :
  ∀ id, id ∈ g.visitedIds ↔ g.FromRoot id
  := h.mem_executionOrder_iff.2

/-- To a node in front of another one a path leads that is not longer than one to the other. -/
theorem Valid.exists_stepsFromRoot_le (h : g.Valid) {k : Nat} (hb : g.StepsFromRoot k b)
    (ha : a ∈ g.visitedIds) (hle : g.visitedIds.idxOf a ≤ g.visitedIds.idxOf b) :
  ∃ j ≤ k, g.StepsFromRoot j a
  := by
  obtain ⟨root, hroot, hsteps⟩ := hb
  induction hsteps generalizing a with
  | refl =>
    have haroot := h.mem_rootIds_of_idxOf_le (List.mem_map_of_mem hroot) hle
    exact ⟨0, Nat.le_refl 0, stepsFromRoot_of_mem_rootIds haroot⟩
  | @tail k q b hq hlink ih =>
    by_cases haroot : a ∈ g.rootIds
    · exact ⟨0, Nat.zero_le _, stepsFromRoot_of_mem_rootIds haroot⟩
    · have hbroot : b ∉ g.rootIds := fun hb => haroot (h.mem_rootIds_of_idxOf_le hb hle)
      have hafrom : g.FromRoot a := (h.mem_visitedIds_iff a).mp ha
      have hbfrom : g.FromRoot b := ⟨root, hroot, (hq.tail hlink).reaches⟩
      have hqfrom : g.FromRoot q := ⟨root, hroot, hq.reaches⟩
      obtain ⟨p, i, hp⟩ := exists_reachedFrom hafrom haroot h.mem_visitedIds_iff
      obtain ⟨c, j, hc⟩ := exists_reachedFrom hbfrom hbroot h.mem_visitedIds_iff
      -- The place `a` is reached from is not behind the one `b` is, and so not behind `q`.
      have hpc := h.idxOf_le_of_reachedFrom ha haroot hbroot hp hc hle
      have hcq := hc.earliest q ((h.mem_visitedIds_iff q).mpr hqfrom) hlink
      obtain ⟨l, hl, hpath⟩ := ih hp.visited (Nat.le_trans hpc hcq)
      exact ⟨l + 1, by omega, hpath.tail hp.linked⟩

/-- The distance does not decrease along the order. -/
theorem Valid.pairwise_distance (h : g.Valid) :
  g.visitedIds.Pairwise fun a b => g.distance a ≤ g.distance b
  := by
  apply (Compiler.pairwise_iff_idxOf h.mem_executionOrder_iff.1).mpr
  intro a ha b hb hlt
  obtain ⟨j, hj, hsteps⟩ := h.exists_stepsFromRoot_le
    ((h.mem_visitedIds_iff b).mp hb).stepsFromRoot_distance ha (Nat.le_of_lt hlt)
  apply Nat.le_trans hsteps.distance_le hj

/-- The order of a valid graph is an order of a walk in breadth. -/
theorem Valid.breadthFirst (h : g.Valid) :
  g.BreadthFirst g.visitedIds
  := by
  constructor
  · apply h.mem_executionOrder_iff.1
  · apply h.mem_visitedIds_iff
  · apply h.prefix_visitedIds
  · apply h.pairwise_distance
  · intro b _ d _ hb hd hbd a c i j hfrom hfrom'
    apply h.idxOf_lt_iff hb hd hbd hfrom hfrom'

/-! ### No other order -/

namespace BreadthFirst

variable {order' : List String} {k : Nat} {u v : String}

/-- A visited node that is no root is reached from a place in front of it. -/
theorem exists_idxOf_lt (h : g.BreadthFirst order) (hb : b ∈ order) (hroot : b ∉ g.rootIds) :
  ∃ a i, ReachedFrom g.edges order a i b ∧ order.idxOf a < order.idxOf b
  := by
  have hbfrom := (h.visited b).mp hb
  obtain ⟨a, i, ha⟩ := exists_reachedFrom hbfrom hroot h.visited
  use a, i, ha
  obtain ⟨root, hmem, hsteps⟩ := hbfrom.stepsFromRoot_distance
  generalize hk : g.distance b = k at hsteps
  cases hsteps with
  | refl => apply absurd (List.mem_map_of_mem hmem) hroot
  | @tail k q _ hq hlink =>
    have hqmem : q ∈ order := (h.visited q).mpr ⟨root, hmem, hq.reaches⟩
    have hdistance : g.distance q < g.distance b := by
      have := StepsFromRoot.distance_le ⟨root, hmem, hq⟩
      omega
    have haq := ha.earliest q hqmem hlink
    have hqb : order.idxOf q < order.idxOf b := by
      by_contra hnot
      have hbq : order.idxOf b ≠ order.idxOf q := by
        intro heq
        rw [(List.idxOf_inj hb).mp heq] at hdistance
        apply Nat.lt_irrefl _ hdistance
      have := (Compiler.pairwise_iff_idxOf h.distinct).mp h.distance b hb q hqmem (by omega)
      omega
    omega

/-- Two orders with a common front have the same node behind it. -/
theorem next_eq (h : g.BreadthFirst order) (h' : g.BreadthFirst order')
    (htake : order.take k = order'.take k) (hu : u ∈ order) (huk : order.idxOf u = k)
    (hv : v ∈ order') (hvk : order'.idxOf v = k) :
  u = v
  := by
  have hmem : ∀ id, id ∈ order ↔ id ∈ order' := fun id => (h.visited id).trans (h'.visited id).symm
  have hroots : ∀ id ∈ g.rootIds, order.idxOf id = order'.idxOf id := by
    intro id hid
    rw [← h.roots.idxOf_eq_of_mem hid, h'.roots.idxOf_eq_of_mem hid]
  by_contra huv
  have huroot : u ∉ g.rootIds := by
    intro hroot
    apply huv ((List.idxOf_inj ((hmem u).mp hu)).mp _)
    rw [← hroots u hroot, huk, hvk]
  have hvroot : v ∉ g.rootIds := by
    intro hroot
    apply huv ((List.idxOf_inj hu).mp _)
    rw [hroots v hroot, huk, hvk]
  have huv_lt := Compiler.idxOf_lt_of_take_eq htake huk hvk ((hmem v).mpr hv) huv
  have hvu_lt := Compiler.idxOf_lt_of_take_eq htake.symm hvk huk ((hmem u).mp hu) (Ne.symm huv)
  obtain ⟨a, i, hfrom, hau⟩ := h.exists_idxOf_lt hu huroot
  obtain ⟨c, j, hfrom', hcv⟩ := h'.exists_idxOf_lt hv hvroot
  have ha : a ∈ order.take k := (List.mem_take_iff_idxOf_lt hfrom.visited).mpr (huk ▸ hau)
  have hc : c ∈ order'.take k := (List.mem_take_iff_idxOf_lt hfrom'.visited).mpr (hvk ▸ hcv)
  have hearlier := (h.ties u hu v ((hmem v).mpr hv) huroot hvroot huv a c i j hfrom
    (hfrom'.of_take_eq htake.symm hc)).mp huv_lt
  have hearlier' := (h'.ties v hv u ((hmem u).mp hu) hvroot huroot (Ne.symm huv) c a j i hfrom'
    (hfrom.of_take_eq htake ha)).mp hvu_lt
  have haplace := Compiler.idxOf_eq_of_mem_take htake ha
  have hcplace := Compiler.idxOf_eq_of_mem_take htake.symm hc
  omega

/-- No two orders of a graph are orders of walks in breadth. -/
theorem unique (h : g.BreadthFirst order) (h' : g.BreadthFirst order') :
  order = order'
  := by
  have hlength : order.length = order'.length := by
    apply List.Perm.length_eq
    apply (List.perm_ext_iff_of_nodup h.distinct h'.distinct).mpr
    intro id
    rw [h.visited, h'.visited]
  have htake : ∀ k ≤ order.length, order.take k = order'.take k := by
    intro k
    induction k with
    | zero => intro _; rfl
    | succ k ih =>
      intro hk
      have hk' : k < order'.length := by omega
      have hfront := ih (by omega)
      have hnext : order[k] = order'[k] := by
        apply h.next_eq h' hfront (List.getElem_mem hk) (h.distinct.idxOf_getElem k hk)
          (List.getElem_mem hk') (h'.distinct.idxOf_getElem k hk')
      rw [List.take_add_one, List.take_add_one, List.getElem?_eq_getElem hk,
        List.getElem?_eq_getElem hk', hfront, hnext]
  rw [← List.take_length (l := order), htake _ (Nat.le_refl _), hlength, List.take_length]

end BreadthFirst

/-- The execution order of a graph that an editor has made is the order of a walk in breadth.  It
has the ids of the nodes that come from an input that no edge leads to, each once; these inputs are
in front, in the order of the nodes; no node is behind one that is farther from them; and of two
other nodes the one is in front whose earliest visited predecessor is in front of that of the other,
or whose edge from it has the lower index when they have it in common.  Every visited node but these
inputs is behind its earliest visited predecessor.  No other order is the order of a walk in
breadth. -/
theorem Reachable.breadthFirst_visitedIds (h : g.Reachable) :
  g.rootIds
    = (g.nodes.filter fun n => n.kind = "textInput" ∧ ∀ e ∈ g.edges, e.target ≠ n.id).map
        (·.id) ∧
  g.BreadthFirst g.visitedIds ∧
  (∀ b ∈ g.visitedIds, b ∉ g.rootIds → ∃ a i, ReachedFrom g.edges g.visitedIds a i b ∧
    g.visitedIds.idxOf a < g.visitedIds.idxOf b) ∧
  ∀ order, g.BreadthFirst order → order = g.visitedIds
  := by
  have hbreadth := h.valid.breadthFirst
  refine ⟨?_, hbreadth, ?_, ?_⟩
  · rw [rootIds, roots]
    congr 1
    apply List.filter_congr
    intro n _
    rw [Bool.eq_iff_iff, h.valid.isRoot_iff, decide_eq_true_eq]
    rfl
  · intro b hb hroot
    apply hbreadth.exists_idxOf_lt hb hroot
  · intro order horder
    apply horder.unique hbreadth

end Graph

/-- An input that leads to a node along three edges and along one edge. -/
def shortcut : Document :=
  ⟨[.plain "in" "textInput", .plain "a" "tokenization", .plain "b" "lemmatization",
      .plain "c" "stemming"],
    [⟨"1", "in", "a"⟩, ⟨"2", "a", "b"⟩, ⟨"3", "b", "c"⟩, ⟨"4", "in", "c"⟩]⟩

/-- The node that is near the input by one of its paths is visited in front of the node that is on
the way to it by the other, and this is the only order of a walk in breadth. -/
theorem Graph.breadthFirst_shortcut :
  shortcut.graph.Reachable ∧ shortcut.graph.BreadthFirst ["in", "a", "c", "b"] ∧
    ∀ order, shortcut.graph.BreadthFirst order → order = ["in", "a", "c", "b"]
  := by
  have hreach : shortcut.graph.Reachable := Graph.reachable_of_ofDocument (d := shortcut) (by cbv)
  have horder : shortcut.graph.visitedIds = ["in", "a", "c", "b"] := by
    cbv
  obtain ⟨-, hbreadth, -, hunique⟩ := hreach.breadthFirst_visitedIds
  rw [horder] at hbreadth hunique
  use hreach, hbreadth

end TextPipeline
