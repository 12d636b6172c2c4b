import Mathlib
import TextPipeline.Proofs.Script.Compiler

/-!
# Scripts of renamed graphs

A script shows nothing of the ids of the nodes: graphs that are the same but for names give the
same text, as long as their first roots carry the same label.  Only the order of the script names
the nodes, and it names those of the renamed graph by their new names.
-/

namespace TextPipeline

namespace Graph

variable {r : String → String} {g g' : Graph}

/-- All names in a valid graph are ids of nodes. -/
theorem Valid.mem_ids_of_mem_names (h : g.Valid) {a : String} (ha : a ∈ g.names) :
  a ∈ g.ids
  := by
  obtain hid | ⟨e, he, rfl | rfl⟩ := ha
  · apply hid
  · apply (h.attached e he).1
  · apply (h.attached e he).2

/-- A renaming under which no two nodes of a valid graph get the same id keeps all names in it
apart. -/
theorem Valid.injOn_names (h : g.Valid) (hr : Set.InjOn r {a | a ∈ g.ids}) :
  g.names.InjOn r
  := by
  apply hr.mono
  intro a ha
  apply h.mem_ids_of_mem_names ha

end Graph

namespace Compiler

/-- The sample text of a valid graph depends on nothing but the label of the first visited node. -/
theorem sample_congr (c : Compiler) {g g' : Graph} (h : g.Valid) (h' : g'.Valid)
    (hlabel : (g'.executionOrder.head?.bind fun n => n.data.label)
      = g.executionOrder.head?.bind fun n => n.data.label) :
  c.sample g'.executionOrder = c.sample g.executionOrder
  := by
  rw [c.sample_executionOrder h, c.sample_executionOrder h', hlabel]

/-- Two graphs that editors have made give scripts with the same text and the same kinds if the
one is the other with its nodes renamed, no two of them to one name, and if the first inputs that
no edge leads to have the same label.  The order of the second script is the first one under the
new names.  Nothing else in the nodes counts, nor do the ids of the edges. -/
theorem compile_renamed (c : Compiler) {g g' : Graph} (h : g.Reachable) (h' : g'.Reachable)
    {r : String → String} (hr : Set.InjOn r {a | ∃ n ∈ g.nodes, n.id = a})
    (hnodes : g'.nodes.map (fun n => (n.id, n.kind)) = g.nodes.map fun n => (r n.id, n.kind))
    (hedges : g'.edges.map (fun e => (e.source, e.target))
      = g.edges.map fun e => (r e.source, r e.target))
    (hlabel : ((g'.nodes.find? fun n => n.kind = "textInput" ∧ ∀ e ∈ g'.edges, e.target ≠ n.id).bind
        fun n => n.data.label)
      = (g.nodes.find? fun n => n.kind = "textInput" ∧ ∀ e ∈ g.edges, e.target ≠ n.id).bind
        fun n => n.data.label) :
  (c.compile g').text = (c.compile g).text ∧
  (c.compile g').kinds = (c.compile g).kinds ∧
  (c.compile g').order = (c.compile g).order.map r
  := by
  have hrenamed : g.Renamed r g' := ⟨hnodes, hedges⟩
  have hnames : g.names.InjOn r := by
    apply h.valid.injOn_names
    apply hr.mono
    intro a ha
    apply List.mem_map.mp ha
  have hkinds := hrenamed.map_kind_executionOrder hnames
  have hsample := c.sample_congr h.valid h'.valid (by
    rw [h.valid.head?_executionOrder, h'.valid.head?_executionOrder]
    apply hlabel)
  refine ⟨?_, ?_, hrenamed.map_id_executionOrder hnames⟩
  · rw [text_compile, text_compile, hsample, hkinds]
  · apply congrArg firstOccurrences hkinds

/-- The fork under other names, with another label, other data and other ids of the edges where
they do not count. -/
def renamedFork : Document :=
  ⟨[⟨"n1", inputKind, ⟨.zero true, .zero false⟩,
        ⟨some "Hi", some "a text", none, [("color", .str "red")]⟩⟩,
      ⟨"n2", "stemming", .origin, .ofLabel "a label"⟩, .plain "n3" "stemming"],
    [⟨"x", "n1", "n2"⟩, ⟨"x", "n1", "n3"⟩]⟩

/-- The renamed fork gives the text of the fork. -/
theorem compile_renamedFork :
  renamedFork.graph.Reachable ∧
    (standard.compile renamedFork.graph).text = (standard.compile fork.graph).text ∧
    (standard.compile renamedFork.graph).order = (standard.compile fork.graph).order.map ("n" ++ ·)
  := by
  have hfork : fork.graph.Reachable := Graph.reachable_of_ofDocument (d := fork) (by cbv)
  have hrenamed : renamedFork.graph.Reachable :=
    Graph.reachable_of_ofDocument (d := renamedFork) (by cbv)
  have hr : Set.InjOn ("n" ++ ·) {a | ∃ n ∈ fork.graph.nodes, n.id = a} := by
    rintro a - b - hab
    simpa using hab
  obtain ⟨htext, -, horder⟩ := standard.compile_renamed hfork hrenamed hr (by decide) (by decide)
    (by decide)
  use hrenamed, htext, horder

end Compiler

end TextPipeline
