import Mathlib
import TextPipeline.Proofs.Editing
import TextPipeline.Proofs.Script.Compiler
import TextPipeline.Proofs.Script.Setups

/-!
# Kinds in place of other kinds

A walk looks at nothing in a node but its id and whether it is an input, so that a graph in which
the nodes have been given other kinds is walked in the same way.  A compiler that maps a kind onto a
listed one therefore makes of a graph what the standard compiler makes of the graph that has the
listed kind in its place.  Only where the listed kind is used as well do the two scripts part: the
one defines the operation for both kinds, the other one once.
-/

namespace TextPipeline

namespace Graph

variable {f : Node → Node} {g : Graph}

/-- The graph with other nodes in place of its nodes. -/
def mapNodes (f : Node → Node) (g : Graph) : Graph :=
  { g with nodes := g.nodes.map f }

/-! ### Walks among other nodes -/

theorem node?_mapNodes (hid : ∀ n, (f n).id = n.id) (id : String) :
  (g.mapNodes f).node? id = (g.node? id).map f
  := by
  rw [node?, mapNodes, List.find?_map, node?]
  simp only [Function.comp_def, hid]

theorem lastNode?_mapNodes (hid : ∀ n, (f n).id = n.id) (id : String) :
  (g.mapNodes f).lastNode? id = (g.lastNode? id).map f
  := by
  rw [lastNode?, mapNodes, ← List.map_reverse, List.find?_map, lastNode?]
  simp only [Function.comp_def, hid]

theorem contains_mapNodes (hid : ∀ n, (f n).id = n.id) (id : String) :
  (g.mapNodes f).contains id = g.contains id
  := by
  rw [contains, node?_mapNodes hid, Option.isSome_map, contains]

/-- The roots are those nodes that stand in place of roots. -/
theorem roots_mapNodes (hid : ∀ n, (f n).id = n.id) (hinput : ∀ n, (f n).isInput = n.isInput) :
  (g.mapNodes f).roots = g.roots.map f
  := by
  have hroot : (g.mapNodes f).isRoot ∘ f = g.isRoot := by
    funext n
    simp only [Function.comp_apply, isRoot, hinput, hid, contains_mapNodes hid]
    rfl
  rw [roots, mapNodes, List.filter_map, ← mapNodes, hroot, roots]

end Graph

namespace Tour

variable {f : Node → Node} {g : Graph}

/-- The walk with other nodes in place of its nodes. -/
def map (f : Node → Node) (t : Tour) : Tour :=
  ⟨t.queue.map f, t.order.map f⟩

theorem visited_map (hid : ∀ n, (f n).id = n.id) (t : Tour) (id : String) :
  (t.map f).visited id = t.visited id
  := by
  rw [visited, map, List.any_map, visited]
  simp only [Function.comp_def, hid]

/-- A node that stands in place of another one is visited like it. -/
theorem visit_map (hid : ∀ n, (f n).id = n.id) (t : Tour) (n : Node) (queue : List Node) :
  (t.map f).visit (g.mapNodes f) (f n) (queue.map f) = (t.visit g n queue).map f
  := by
  have hnode : (g.mapNodes f).lastNode? = fun id => (g.lastNode? id).map f := by
    funext id
    apply Graph.lastNode?_mapNodes hid
  have htargets : (fun id => !(⟨queue.map f, (t.map f).order ++ [f n]⟩ : Tour).visited id)
      = fun id => !(⟨queue, t.order ++ [n]⟩ : Tour).visited id := by
    funext id
    rw [← visited_map hid ⟨queue, t.order ++ [n]⟩]
    simp [map]
  simp only [visit, htargets, hid, hnode]
  simp only [map, List.map_append, List.map_filterMap, List.map_singleton]
  rfl

/-- A walk among other nodes takes the same steps. -/
theorem step_map (hid : ∀ n, (f n).id = n.id) (t : Tour) :
  (t.map f).step (g.mapNodes f) = (t.step g).map (map f)
  := by
  cases hqueue : t.queue with
  | nil => simp [step, map, hqueue]
  | cons n queue =>
    have hqueue' : (t.map f).queue = f n :: queue.map f := by
      rw [map, hqueue, List.map_cons]
    simp only [step, hqueue, hqueue', visited_map hid, hid, visit_map hid, Option.map_some]
    split <;> rfl

/-- A walk among other nodes visits those that stand in place of the visited nodes. -/
theorem finish_map (hid : ∀ n, (f n).id = n.id) (t : Tour) :
  (t.map f).finish (g.mapNodes f) = (t.finish g).map f
  := by
  fun_induction t.finish g with
  | case1 t hend =>
    have hend' : (t.map f).step (g.mapNodes f) = none := by
      rw [step_map hid, hend, Option.map_none]
    apply (finish_of_step_eq_none hend').2
  | case2 t u hu ih =>
    have hu' : (t.map f).step (g.mapNodes f) = some (u.map f) := by
      rw [step_map hid, hu, Option.map_some]
    rw [finish_of_step_eq_some hu', ih]

end Tour

namespace Graph

variable {f : Node → Node} {g : Graph}

/-- Nodes that have the ids of others and are inputs like them are executed in the same order. -/
theorem executionOrder_mapNodes (hid : ∀ n, (f n).id = n.id)
    (hinput : ∀ n, (f n).isInput = n.isInput) :
  (g.mapNodes f).executionOrder = g.executionOrder.map f
  := by
  rw [executionOrder, executionOrder, Tour.start, roots_mapNodes hid hinput, ← Tour.finish_map hid]
  rfl

/-- A graph stays valid with other nodes of the same ids. -/
theorem Valid.mapNodes (h : g.Valid) (hid : ∀ n, (f n).id = n.id) :
  (g.mapNodes f).Valid
  := by
  have hids : (g.mapNodes f).ids = g.ids := by
    rw [ids, Graph.mapNodes, List.map_map, ids]
    simp only [Function.comp_def, hid]
  constructor
  · rw [hids]
    apply h.distinct
  · rw [hids]
    apply h.attached
  · apply h.loopless
  · apply h.simple
  · apply h.acyclic

end Graph

/-! ### A kind in place of another one -/

/-- The kind `new` in place of the kind `old`. -/
def replaced (old new kind : String) : String :=
  if kind = old then new else kind

/-- The graph with the kind `new` in place of the kind `old` on every node. -/
def Graph.replaceKind (old new : String) (g : Graph) : Graph :=
  g.mapNodes fun n => { n with kind := replaced old new n.kind }

/-- No input is made or lost when neither kind is that of inputs. -/
theorem isInput_replaced {old new : String} (hold : old ≠ inputKind) (hnew : new ≠ inputKind)
    (n : Node) :
  ({ n with kind := replaced old new n.kind } : Node).isInput = n.isInput
  := by
  simp only [Node.isInput, replaced]
  split
  · next h => simp [h, hold, hnew]
  · rfl

/-- Kinds are kept apart by a replacement when the new kind is not among them. -/
theorem injOn_replaced {old new : String} {kinds : List String} (h : new ∉ kinds) :
  Set.InjOn (replaced old new) {k | k ∈ kinds}
  := by
  intro a ha b hb hab
  have ha' : new ≠ a := (ne_of_mem_of_not_mem ha h).symm
  have hb' : new ≠ b := (ne_of_mem_of_not_mem hb h).symm
  simp only [replaced] at hab
  split at hab <;> split at hab <;> simp_all

/-- A graph that an editor has made could have been made with another kind in place of one. -/
theorem Graph.Reachable.replaceKind {g : Graph} (h : g.Reachable) (old new : String) :
  (g.replaceKind old new).Reachable
  := by
  have hvalid : (g.replaceKind old new).Valid := h.valid.mapNodes fun _ => rfl
  have hload : ofDocument (g.replaceKind old new).toDocument = .ok (g.replaceKind old new) :=
    ofDocument_eq_ok_iff.mpr ⟨hvalid, rfl⟩
  apply reachable_of_ofDocument hload

namespace Compiler

/-- The compiler that maps a kind onto a listed one has for each kind the template that the standard
compiler has for the kind in its place. -/
theorem template?_ofSetups_mapping {builtin : OperationKind} (h : builtin ≠ .textInput)
    (old kind : String) :
  (ofSetups [.mapping old builtin.identifier]).template? kind
    = standard.template? (replaced old builtin.identifier kind)
  := by
  have hstandard : ∀ name, standard.template? name = Templates.ofIdentifier? name :=
    Templates.get?_builtin
  rw [template?_ofSetups, hstandard, List.reverse_singleton, List.findSome?_singleton,
    Setup.given?, replaced]
  by_cases hkind : kind = old
  · rw [if_pos hkind.symm, if_pos hkind]
    -- What the mapping gives is what there would be without it, since there is something.
    obtain ⟨t, ht⟩ := Option.ne_none_iff_exists'.mp (builtin.template?_eq_none_iff.not.mpr h)
    rw [Templates.ofIdentifier?_eq_some_iff.mpr ⟨builtin, rfl, ht⟩, Option.some_or]
  · rw [if_neg (Ne.symm hkind), if_neg hkind, Option.none_or]

/-- The sample text does not depend on the kinds of nodes that are no inputs. -/
theorem sample_map {c c' : Compiler} (h : c'.sampleText = c.sampleText) {f : Node → Node}
    (hinput : ∀ n, (f n).isInput = n.isInput) (hdata : ∀ n, (f n).data = n.data)
    (order : List Node) :
  c'.sample (order.map f) = c.sample order
  := by
  have hview : Node.isInput ∘ f = Node.isInput := funext hinput
  have hlabel : ((order.map f).find? Node.isInput).bind (fun n => n.data.label)
      = (order.find? Node.isInput).bind fun n => n.data.label := by
    rw [List.find?_map, hview, Option.bind_map]
    simp only [Function.comp_def, hdata]
  simp only [sample, hlabel, h]

/-- What stands after the sample text is the same for other kinds with the same templates, as long
as no two of the kinds become one. -/
theorem rest_map {c c' : Compiler} {f : String → String}
    (htemplate : ∀ kind, c.template? kind = c'.template? (f kind)) {kinds : List String}
    (hf : Set.InjOn f {k | k ∈ kinds}) :
  c'.rest (kinds.map f) = c.rest kinds
  := by
  have htemplates : c'.template? ∘ f = c.template? := by
    funext kind
    rw [htemplate, Function.comp_apply]
  rw [rest, rest, firstOccurrences_map hf, List.filterMap_map, List.filterMap_map, htemplates]

/-- A mapping of a kind other than the input onto a listed operation makes of a graph in which no
node of that operation is visited what the standard compiler makes of the graph that has the
operation in place of the kind: the same text and the same order, and the kinds with the operation
in place of the kind.  If an editor can make the one graph it can make the other. -/
theorem compile_mapping (g : Graph) {kind : String} {builtin : OperationKind}
    (hkind : kind ≠ "textInput") (hbuiltin : builtin ≠ .textInput)
    (hunused : ∀ n ∈ g.executionOrder, n.kind ≠ builtin.identifier) :
  ((ofSetups [.mapping kind builtin.identifier]).compile g).text
    = (standard.compile (g.replaceKind kind builtin.identifier)).text ∧
  ((ofSetups [.mapping kind builtin.identifier]).compile g).order
    = (standard.compile (g.replaceKind kind builtin.identifier)).order ∧
  (standard.compile (g.replaceKind kind builtin.identifier)).kinds
    = ((ofSetups [.mapping kind builtin.identifier]).compile g).kinds.map
        (fun k => if k = kind then builtin.identifier else k) ∧
  (g.Reachable → (g.replaceKind kind builtin.identifier).Reachable)
  := by
  have hnoInput : builtin.identifier ≠ inputKind := fun h =>
    hbuiltin (OperationKind.identifier_injective h)
  have hinput := isInput_replaced hkind hnoInput
  have horder : (g.replaceKind kind builtin.identifier).executionOrder
      = g.executionOrder.map fun n => { n with kind := replaced kind builtin.identifier n.kind } :=
    Graph.executionOrder_mapNodes (fun _ => rfl) hinput
  have hkinds : (g.replaceKind kind builtin.identifier).executionOrder.map (·.kind)
      = (g.executionOrder.map (·.kind)).map (replaced kind builtin.identifier) := by
    rw [horder, List.map_map, List.map_map]
    rfl
  have hnew : builtin.identifier ∉ g.executionOrder.map (·.kind) := by
    simpa using hunused
  refine ⟨?_, ?_, ?_, fun h => h.replaceKind _ _⟩
  · have hsample : standard.sampleText
        = (ofSetups [.mapping kind builtin.identifier]).sampleText := by
      rw [ofSetups, List.foldl_cons, List.foldl_nil, sampleText_setUp]
      rfl
    rw [text_compile, text_compile, hkinds, horder, sample_map hsample hinput fun _ => rfl,
      rest_map (template?_ofSetups_mapping hbuiltin kind) (injOn_replaced hnew)]
  · have hids : (g.replaceKind kind builtin.identifier).executionOrder.map (·.id)
        = g.executionOrder.map (·.id) := by
      rw [horder, List.map_map]
      rfl
    apply hids.symm
  · rw [compile, script, hkinds, firstOccurrences_map (injOn_replaced hnew)]
    rfl

/-- An input that leads to a node of a kind that is not listed, and apart from them a node of a
listed kind. -/
def listedAside : Document :=
  ⟨[⟨"1", inputKind, .origin, .ofLabel "Hi"⟩, .plain "2" "mine", .plain "3" "tokenization"],
    [⟨"1", "1", "2"⟩]⟩

/-- The kind that is not listed is mapped onto the listed one, which is not used otherwise. -/
theorem compile_mapping_listedAside :
  (listedAside.graph.replaceKind "mine" "tokenization").Reachable ∧
    (∀ n ∈ listedAside.graph.executionOrder, n.kind ≠ OperationKind.tokenization.identifier) ∧
    ((ofSetups [.mapping "mine" "tokenization"]).compile listedAside.graph).text
      = (standard.compile (listedAside.graph.replaceKind "mine" "tokenization")).text ∧
    ((ofSetups [.mapping "mine" "tokenization"]).compile listedAside.graph).kinds
      = ["textInput", "mine"] ∧
    (standard.compile (listedAside.graph.replaceKind "mine" "tokenization")).kinds
      = ["textInput", "tokenization"]
  := by
  have hvisited : listedAside.graph.executionOrder.map (·.kind) = ["textInput", "mine"] := by
    cbv
  have hunused : ∀ n ∈ listedAside.graph.executionOrder,
      n.kind ≠ OperationKind.tokenization.identifier := by
    intro n hn
    have hkind := List.mem_map_of_mem (f := (·.kind)) hn
    rw [hvisited] at hkind
    intro heq
    rw [heq] at hkind
    revert hkind
    decide
  have hkinds : ((ofSetups [.mapping "mine" "tokenization"]).compile listedAside.graph).kinds
      = ["textInput", "mine"] := by
    rw [compile, script, hvisited]
    decide
  have hreach : listedAside.graph.Reachable :=
    Graph.reachable_of_ofDocument (d := listedAside) (by cbv)
  have hkind : "mine" ≠ "textInput" := by decide
  have hbuiltin : OperationKind.tokenization ≠ .textInput := by decide
  obtain ⟨htext, -, hmapped, hreplaced⟩ := compile_mapping listedAside.graph hkind hbuiltin hunused
  refine ⟨hreplaced hreach, hunused, htext, hkinds, ?_⟩
  apply hmapped.trans
  apply (congrArg _ hkinds).trans
  decide

end Compiler

end TextPipeline
