import Mathlib.Data.List.Chain
import Mathlib.Data.List.Nodup
import TextPipeline.Proofs.Pipeline.Paths

/-!
# What the search for cycles finds

At every point of the walk the nodes on the stack form a path from the target, the nodes on the
way are these and the source, and whatever follows a cleared node was cleared before it.  A node
that is met again therefore closes a cycle or leads to the source, and once the stack is empty the
cleared nodes are all that the target reaches, the source and the cycles being none of it.

Hence the search finds a cycle exactly when the target reaches the source or some cycle.  Nothing
is asked of the edges: they may hold cycles already.
-/

namespace TextPipeline

open Relation

/-- A node leads back to itself. -/
def OnCycle (edges : List Edge) (a : String) : Prop :=
  Leads edges a a

namespace Walk

variable {edges : List Edge} {source target : String} {w w' : Walk}

/-- The nodes on the stack, the one that was entered last in front. -/
def nodes (w : Walk) : List String :=
  w.stack.map (·.node)

/-- Each node of the list stands in front of all its successors, which are in the list too. -/
def Settled (edges : List Edge) : List String → Prop
  | [] => True
  | a :: before => a ∉ before ∧ (∀ b, Linked edges a b → b ∈ before) ∧ Settled edges before

/-- The successors that a stack has looked at are cleared, but for the node above each frame. -/
def LookedAt (edges : List Edge) (cleared : List String) : Option String → List Frame → Prop
  | _, [] => True
  | above, f :: below =>
    (∀ b ∈ (successors edges f.node).take f.cursor, b ∈ cleared ∨ above = some b) ∧
      LookedAt edges cleared (some f.node) below

/-- What holds at every point of a walk from `target` with `source` on the way. -/
structure Invariant (edges : List Edge) (source target : String) (w : Walk) : Prop where
  /-- The stack is a path. -/
  chain : w.nodes.IsChain fun b a => Linked edges a b
  /-- The path begins at the target, until the target itself has been left. -/
  origin : w.nodes.getLast? = some target ∨ w.nodes = [] ∧ target ∈ w.cleared
  way : w.path = w.nodes ++ [source]
  distinct : w.path.Nodup
  disjoint : w.path.Disjoint w.cleared
  settled : Settled edges w.cleared
  looked : LookedAt edges w.cleared none w.stack

/-! ### Settled lists -/

/-- What follows a member of a settled list is a member too. -/
theorem Settled.reaches {cleared : List String} (h : Settled edges cleared) {a b : String}
    (ha : a ∈ cleared) (hab : Reaches edges a b) :
  b ∈ cleared
  := by
  have hstep : ∀ {cleared : List String}, Settled edges cleared → ∀ a ∈ cleared, ∀ b,
      Linked edges a b → b ∈ cleared := by
    intro cleared h a ha b hab
    induction cleared with
    | nil => simp at ha
    | cons c before ih =>
      obtain ⟨-, hnext, hbefore⟩ := h
      obtain rfl | ha := List.mem_cons.mp ha
      · apply List.mem_cons_of_mem
        apply hnext b hab
      · apply List.mem_cons_of_mem
        apply ih hbefore ha
  induction hab with
  | refl => apply ha
  | tail _ hlink ih => apply hstep h _ ih _ hlink

/-- No member of a settled list leads back to itself. -/
theorem Settled.not_onCycle {cleared : List String} (h : Settled edges cleared) {a : String}
    (ha : a ∈ cleared) :
  ¬ OnCycle edges a
  := by
  induction cleared with
  | nil => simp at ha
  | cons c before ih =>
    obtain ⟨hfresh, hnext, hbefore⟩ := h
    obtain rfl | ha := List.mem_cons.mp ha
    · intro hcycle
      obtain ⟨b, hab, hba⟩ := TransGen.head'_iff.mp hcycle
      apply hfresh
      apply hbefore.reaches (hnext b hab) hba
    · apply ih hbefore ha

/-! ### The stack as a path -/

/-- On a path that is written from its end, the last node of the list reaches all of them. -/
theorem reaches_of_isChain {nodes : List String} (h : nodes.IsChain fun b a => Linked edges a b)
    {first a : String} (hfirst : nodes.getLast? = some first) (ha : a ∈ nodes) :
  Reaches edges first a
  := by
  induction nodes generalizing a with
  | nil => simp at ha
  | cons b below ih =>
    cases below with
    | nil =>
      simp only [List.getLast?_singleton, Option.some.injEq, List.mem_singleton] at hfirst ha
      rw [ha, hfirst]
    | cons c below =>
      rw [List.getLast?_cons_cons] at hfirst
      obtain ⟨hlink, hchain⟩ := List.isChain_cons_cons.mp h
      obtain rfl | ha := List.mem_cons.mp ha
      · apply ReflTransGen.tail _ hlink
        apply ih hchain hfirst List.mem_cons_self
      · apply ih hchain hfirst ha

/-- On a path that is written from its end, every node reaches the first node of the list. -/
theorem reaches_head_of_isChain {nodes : List String} {last : String}
    (h : (last :: nodes).IsChain fun b a => Linked edges a b) {a : String}
    (ha : a ∈ last :: nodes) :
  Reaches edges a last
  := by
  induction nodes generalizing last with
  | nil =>
    rw [List.mem_singleton.mp ha]
  | cons b below ih =>
    obtain ⟨hlink, hchain⟩ := List.isChain_cons_cons.mp h
    obtain rfl | ha := List.mem_cons.mp ha
    · apply ReflTransGen.refl
    · apply ReflTransGen.tail (ih hchain ha) hlink

/-! ### The invariant along a walk -/

/-- The invariant holds before the first step. -/
theorem Invariant.start (h : source ≠ target) :
  (start source target).Invariant edges source target
  := by
  constructor
  · simp [Walk.start, nodes]
  · left
    rfl
  · rfl
  · simp [Walk.start, h.symm]
  · simp [Walk.start]
  · trivial
  · simp [Walk.start, LookedAt]

/-- A frame that has looked at one more successor has looked at that one besides. -/
theorem forall_mem_take_succ {p : String → Prop} {bs : List String} {i : Nat} {next : String}
    (hnext : bs[i]? = some next) (h : ∀ b ∈ bs.take i, p b) (hp : p next) :
  ∀ b ∈ bs.take (i + 1), p b
  := by
  intro b hb
  rw [List.take_add_one, hnext] at hb
  obtain hb | hb := List.mem_append.mp hb
  · apply h b hb
  · obtain rfl : b = next := by simpa using hb
    apply hp

/-- What has been looked at stays cleared when more is cleared. -/
theorem LookedAt.mono {cleared cleared' : List String} (h : cleared ⊆ cleared')
    {above : Option String} {stack : List Frame} (hs : LookedAt edges cleared above stack) :
  LookedAt edges cleared' above stack
  := by
  induction stack generalizing above with
  | nil => trivial
  | cons f below ih =>
    obtain ⟨hf, hbelow⟩ := hs
    constructor
    · intro b hb
      apply (hf b hb).imp_left
      apply h
    · apply ih hbelow

/-- The invariant is kept when a cleared successor is skipped. -/
theorem Invariant.skip (h : w.Invariant edges source target) {top : Frame} {below : List Frame}
    {next : String} (hstack : w.stack = top :: below)
    (hnext : (successors edges top.node)[top.cursor]? = some next) (hcleared : next ∈ w.cleared) :
  ({ w with stack := ⟨top.node, top.cursor + 1⟩ :: below } : Walk).Invariant edges source target
  := by
  obtain ⟨hchain, horigin, hway, hdistinct, hdisjoint, hsettled, hlooked⟩ := h
  have hnodes : ({ w with stack := ⟨top.node, top.cursor + 1⟩ :: below } : Walk).nodes = w.nodes := by
    simp [nodes, hstack]
  rw [hstack] at hlooked
  obtain ⟨htop, hbelow⟩ := hlooked
  constructor
  · rw [hnodes]
    apply hchain
  · rw [hnodes]
    apply horigin
  · rw [hnodes]
    apply hway
  · apply hdistinct
  · apply hdisjoint
  · apply hsettled
  · constructor
    · apply forall_mem_take_succ hnext htop
      left
      apply hcleared
    · apply hbelow

/-- The invariant is kept when a successor is entered that was neither on the way nor cleared. -/
theorem Invariant.enter (h : w.Invariant edges source target) {top : Frame} {below : List Frame}
    {next : String} (hstack : w.stack = top :: below)
    (hnext : (successors edges top.node)[top.cursor]? = some next) (hpath : next ∉ w.path)
    (hcleared : next ∉ w.cleared) :
  ({ w with
      stack := ⟨next, 0⟩ :: ⟨top.node, top.cursor + 1⟩ :: below
      path := next :: w.path } : Walk).Invariant edges source target
  := by
  obtain ⟨hchain, horigin, hway, hdistinct, hdisjoint, hsettled, hlooked⟩ := h
  have hnodes : w.nodes = top.node :: below.map (·.node) := by
    simp [nodes, hstack]
  have hlink : Linked edges top.node next := by
    apply mem_successors.mp
    apply List.mem_of_getElem? hnext
  rw [hstack] at hlooked
  obtain ⟨htop, hbelow⟩ := hlooked
  rw [hnodes] at hchain horigin hway
  constructor
  · apply List.IsChain.cons_cons (R := fun b a => Linked edges a b) hlink hchain
  · left
    obtain horigin | ⟨hnil, -⟩ := horigin
    · simpa [nodes] using horigin
    · simp at hnil
  · simp [nodes, hway]
  · apply List.nodup_cons.mpr ⟨hpath, hdistinct⟩
  · apply List.disjoint_cons_left.mpr ⟨hcleared, hdisjoint⟩
  · apply hsettled
  · constructor
    · simp
    · constructor
      · apply forall_mem_take_succ (p := fun b => b ∈ w.cleared ∨ some next = some b) hnext
        · intro b hb
          left
          apply (htop b hb).resolve_right
          simp
        · right
          rfl
      · apply hbelow

/-- The invariant is kept when a node is left that has no more successors. -/
theorem Invariant.leave (h : w.Invariant edges source target) {top : Frame} {below : List Frame}
    (hstack : w.stack = top :: below)
    (hnone : (successors edges top.node)[top.cursor]? = none) :
  (⟨below, w.path.filter (· ≠ top.node), top.node :: w.cleared⟩ : Walk).Invariant edges source
    target
  := by
  obtain ⟨hchain, horigin, hway, hdistinct, hdisjoint, hsettled, hlooked⟩ := h
  have hnodes : w.nodes = top.node :: below.map (·.node) := by
    simp [nodes, hstack]
  rw [hstack] at hlooked
  obtain ⟨htop, hbelow⟩ := hlooked
  rw [hnodes] at hchain horigin hway
  rw [hway, List.cons_append] at hdistinct hdisjoint
  obtain ⟨hfresh, hrest⟩ := List.nodup_cons.mp hdistinct
  obtain ⟨hnew, hapart⟩ := List.disjoint_cons_left.mp hdisjoint
  have hpath : w.path.filter (· ≠ top.node) = below.map (·.node) ++ [source] := by
    rw [hway, List.cons_append, List.filter_cons_of_neg (by simp), List.filter_eq_self]
    intro a ha
    simpa using ne_of_mem_of_not_mem ha hfresh
  have hsuccessors : ∀ b, Linked edges top.node b → b ∈ w.cleared := by
    intro b hb
    have htake := htop b
    rw [List.take_of_length_le (List.getElem?_eq_none_iff.mp hnone)] at htake
    apply (htake (mem_successors.mpr hb)).resolve_right
    simp
  constructor
  · apply hchain.tail
  · obtain horigin | ⟨hnil, -⟩ := horigin
    · cases below with
      | nil =>
        right
        constructor
        · rfl
        · simp only [List.map_nil, List.getLast?_singleton, Option.some.injEq] at horigin
          rw [horigin]
          apply List.mem_cons_self
      | cons f below =>
        left
        simpa [nodes] using horigin
    · simp at hnil
  · apply hpath
  · rw [hpath]
    apply hrest
  · rw [hpath]
    apply List.disjoint_cons_right.mpr ⟨hfresh, hapart⟩
  · apply And.intro hnew ⟨hsuccessors, hsettled⟩
  · cases below with
    | nil => trivial
    | cons f below =>
      obtain ⟨hf, hrest⟩ := hbelow
      constructor
      · intro b hb
        left
        obtain hb | hb := hf b hb
        · apply List.mem_cons_of_mem
          apply hb
        · obtain rfl := Option.some.inj hb
          apply List.mem_cons_self
      · apply hrest.mono
        apply List.subset_cons_self

/-- What a step can do that does not end the walk: skip a successor that is cleared, enter one that
is neither on the way nor cleared, or leave a node that has no more successors. -/
inductive Advances (edges : List Edge) : Walk → Walk → Prop where
  | skip {top : Frame} {below : List Frame} {path cleared : List String} {next : String}
      (hnext : (successors edges top.node)[top.cursor]? = some next) (hpath : next ∉ path)
      (hcleared : next ∈ cleared) :
      Advances edges ⟨top :: below, path, cleared⟩
        ⟨⟨top.node, top.cursor + 1⟩ :: below, path, cleared⟩
  | enter {top : Frame} {below : List Frame} {path cleared : List String} {next : String}
      (hnext : (successors edges top.node)[top.cursor]? = some next) (hpath : next ∉ path)
      (hcleared : next ∉ cleared) :
      Advances edges ⟨top :: below, path, cleared⟩
        ⟨⟨next, 0⟩ :: ⟨top.node, top.cursor + 1⟩ :: below, next :: path, cleared⟩
  | leave {top : Frame} {below : List Frame} {path cleared : List String}
      (hnone : (successors edges top.node)[top.cursor]? = none) :
      Advances edges ⟨top :: below, path, cleared⟩
        ⟨below, path.filter (· ≠ top.node), top.node :: cleared⟩

/-- A step that does not end the walk skips, enters or leaves. -/
theorem advances_of_step (h : w.step edges = .next w') :
  Advances edges w w'
  := by
  obtain ⟨stack, path, cleared⟩ := w
  unfold Walk.step at h
  split at h
  · simp at h
  · next top below hstack =>
    obtain rfl : stack = top :: below := hstack
    split at h
    · next next hnext =>
      split at h
      · simp at h
      · next hpath =>
        simp only at h
        split at h
        · next hcleared =>
          obtain rfl := Outcome.next.inj h
          apply Advances.skip hnext hpath hcleared
        · next hcleared =>
          obtain rfl := Outcome.next.inj h
          apply Advances.enter hnext hpath hcleared
    · next hnone =>
      obtain rfl := Outcome.next.inj h
      apply Advances.leave hnone

/-- The invariant is kept by every step. -/
theorem Invariant.step (h : w.Invariant edges source target) (hstep : w.step edges = .next w') :
  w'.Invariant edges source target
  := by
  cases advances_of_step hstep with
  | skip hnext _ hcleared => apply h.skip rfl hnext hcleared
  | enter hnext hpath hcleared => apply h.enter rfl hnext hpath hcleared
  | leave hnone => apply h.leave rfl hnone

/-! ### The answer -/

/-- A walk that meets a node on the way has followed a link to it. -/
theorem linked_of_step_eq_cycle (h : w.step edges = .cycle) :
  ∃ top below, w.nodes = top :: below ∧ ∃ next ∈ w.path, Linked edges top next
  := by
  unfold Walk.step at h
  split at h
  · simp at h
  · next top below hstack =>
    split at h
    · next next hnext =>
      split at h
      · next hpath =>
        use top.node, below.map (·.node), by simp [nodes, hstack], next, hpath
        apply mem_successors.mp
        apply List.mem_of_getElem? hnext
      · simp only at h
        split at h <;> simp at h
    · simp at h

/-- A walk ends with an empty stack unless it meets a node on the way. -/
theorem nodes_of_step_eq_exhausted (h : w.step edges = .exhausted) :
  w.nodes = []
  := by
  unfold Walk.step at h
  split at h
  · next hstack => simp [nodes, hstack]
  · split at h
    · split at h
      · simp at h
      · simp only at h
        split at h <;> simp at h
    · simp at h

/-- When a node on the way is met, the target reaches the source or a cycle. -/
theorem Invariant.of_cycle (h : w.Invariant edges source target)
    (hstep : w.step edges = .cycle) :
  Reaches edges target source ∨ ∃ a, Reaches edges target a ∧ OnCycle edges a
  := by
  obtain ⟨top, below, hnodes, next, hpath, hlink⟩ := linked_of_step_eq_cycle hstep
  have hchain := h.chain
  have horigin := h.origin
  rw [h.way] at hpath
  rw [hnodes] at hchain horigin hpath
  simp only [reduceCtorEq, false_and, or_false] at horigin
  have hreach : Reaches edges target next := by
    apply ReflTransGen.tail _ hlink
    apply reaches_of_isChain hchain horigin List.mem_cons_self
  obtain hpath | hpath := List.mem_append.mp hpath
  · right
    use next, hreach
    apply TransGen.tail' _ hlink
    apply reaches_head_of_isChain hchain hpath
  · left
    rw [List.mem_singleton.mp hpath] at hreach
    apply hreach

/-- When the stack is empty, the target reaches neither the source nor a cycle. -/
theorem Invariant.of_exhausted (h : w.Invariant edges source target)
    (hstep : w.step edges = .exhausted) :
  ¬ (Reaches edges target source ∨ ∃ a, Reaches edges target a ∧ OnCycle edges a)
  := by
  have horigin := h.origin
  rw [nodes_of_step_eq_exhausted hstep] at horigin
  simp only [List.getLast?_nil, reduceCtorEq, true_and, false_or] at horigin
  rintro (hsource | ⟨a, ha, hcycle⟩)
  · have hcleared := h.settled.reaches horigin hsource
    apply h.disjoint _ hcleared
    simp [h.way]
  · apply h.settled.not_onCycle (h.settled.reaches horigin ha) hcycle

/-- From any point of a walk on, a cycle is found exactly when the target reaches the source or
some cycle. -/
theorem Invariant.findsCycle_iff (h : w.Invariant edges source target) :
  w.findsCycle edges = true
    ↔ Reaches edges target source ∨ ∃ a, Reaches edges target a ∧ OnCycle edges a
  := by
  fun_induction findsCycle edges w with
  | case1 w hstep =>
    simp only [true_iff]
    apply h.of_cycle hstep
  | case2 w hstep =>
    simp only [Bool.false_eq_true, false_iff]
    apply h.of_exhausted hstep
  | case3 w w' hstep ih =>
    apply ih
    apply h.step hstep

end Walk

/-- One more edge is said to close a cycle exactly when it is a loop, or its target reaches its
source or a cycle. -/
theorem closesCycle_iff {edges : List Edge} {source target : String} :
  closesCycle edges source target = true
    ↔ source = target ∨ Reaches edges target source ∨
        ∃ a, Reaches edges target a ∧ OnCycle edges a
  := by
  rw [closesCycle, Bool.or_eq_true, decide_eq_true_eq]
  by_cases h : source = target
  · simp [h]
  · rw [(Walk.Invariant.start h).findsCycle_iff]

/-- Among acyclic edges, one more edge is said to close a cycle exactly when its target reaches
its source. -/
theorem Acyclic.closesCycle_iff {edges : List Edge} (h : Acyclic edges) {source target : String} :
  closesCycle edges source target = true ↔ Reaches edges target source
  := by
  rw [TextPipeline.closesCycle_iff]
  constructor
  · rintro (rfl | hback | ⟨a, -, hcycle⟩)
    · apply ReflTransGen.refl
    · apply hback
    · apply absurd hcycle (h a)
  · intro hback
    right
    left
    apply hback

end TextPipeline
