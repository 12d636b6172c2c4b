import TextPipeline.Proofs.EarlierMembers
import TextPipeline.Proofs.Editing
import TextPipeline.Proofs.Script.ExecutionOrder
import TextPipeline.Proofs.Script.FirstOccurrences
import TextPipeline.Proofs.Script.Literal
import TextPipeline.Script.Compiler

/-!
# The texts of scripts

A script is made from the kinds of the visited nodes, with a literal of the sample text set in
between.  What stands before and after the literal does not depend on the sample text, and the
literal ends where it was ended, whatever the sample text is.  The script holds the definition of
each used kind once, and for each visited node the invocation and the print of its kind, in the
execution order, where kinds without a template leave nothing.
-/

namespace TextPipeline

/-- The literal of a text. -/
def ScriptLiteral.literal (text : String) : String :=
  String.ofList (written text.toList)

namespace Compiler

/-! ### Around the sample text -/

/-- What stands after the sample text when the nodes of the given kinds are visited. -/
def rest (c : Compiler) (kinds : List String) : String :=
  let used := (firstOccurrences kinds).filterMap c.template?
  let run := kinds.filterMap c.template?
  afterSample (used.map (·.definition)) (run.map (·.invocation)) (run.map (·.print))

/-- The text of a script is made from the sample text and the kinds of the visited nodes. -/
theorem text_compile (c : Compiler) (g : Graph) :
  (c.compile g).text
    = beforeSample ++ ScriptLiteral.literal (c.sample g.executionOrder) ++
        c.rest (g.executionOrder.map (·.kind))
  := by
  simp only [compile, script, rest, ScriptLiteral.literal, List.filterMap_map]
  rfl

/-- Graphs that are alike visit nodes of the same kinds. -/
theorem map_kind_executionOrder {g g' : Graph} (h : g.Alike g') :
  g'.executionOrder.map (·.kind) = g.executionOrder.map (·.kind)
  := Graph.Renamed.map_kind_executionOrder h Function.injective_id.injOn

/-- The sample text of a valid graph is the label of its first visited node, if the node has one
that is not empty. -/
theorem sample_executionOrder (c : Compiler) {g : Graph} (h : g.Valid) :
  c.sample g.executionOrder
    = ((g.executionOrder.head?.bind fun n => n.data.label).filter (· ≠ "")).getD c.sampleText
  := by
  have hinput : g.executionOrder.find? Node.isInput = g.executionOrder.head? := by
    cases horder : g.executionOrder with
    | nil => rfl
    | cons n more =>
      have hfirst := h.head?_executionOrder
      rw [horder, List.head?_cons] at hfirst
      have hn := List.find?_some hfirst.symm
      rw [decide_eq_true_eq] at hn
      apply List.find?_cons_of_pos
      simp [Node.isInput, hn.1]
  rw [sample, hinput]
  cases g.executionOrder.head?.bind fun n => n.data.label with
  | none => rfl
  | some label =>
    by_cases hempty : label = ""
    · simp [hempty, Option.filter]
    · simp [hempty, Option.filter]

/-- The text before the sample text ends where the sample text is given a name. -/
theorem beforeSample_eq :
  beforeSample
    = "import spacy\n\n# Load spaCy model\nnlp = spacy.load(\"en_core_web_sm\")\n\n" ++
        "# Sample text input\n" ++ "text = "
  := by
  rfl

/-- The parts of the text after the sample text in their order. -/
theorem afterSample_eq (definitions invocations prints : List String) :
  afterSample definitions invocations prints
    = "\ndoc = nlp(text)\n\n# Define pipeline functions\n" ++ "\n".intercalate definitions ++
        "\n\n# Run the pipeline\n" ++ String.join (invocations.map (· ++ "\n")) ++
        "\n# Print results\nprint(\"Results:\")\n" ++ String.join (prints.map (· ++ "\n"))
  := by
  rfl

/-- The text after the sample text begins on a new line. -/
theorem exists_afterSample_eq (definitions invocations prints : List String) :
  ∃ more, afterSample definitions invocations prints = "\n" ++ more
  := by
  have hline : "\ndoc = nlp(text)\n\n# Define pipeline functions\n"
      = "\n" ++ "doc = nlp(text)\n\n# Define pipeline functions\n" := by
    decide
  rw [afterSample_eq, hline]
  simp only [String.append_assoc]
  exact ⟨_, rfl⟩

/-- The script of a graph is a text before the sample text, the literal of the sample text, and a
text after it.  The first ends where the sample text is given a name, the last begins on a new
line, and both are the same for every graph with nodes of the same ids and kinds and edges between
the same nodes, whatever the labels and the default sample text are.  The literal of any text
stands between quotes; there is no control character between them, every quote there is escaped,
and the literal is read as the text again, within the script as well as alone. -/
theorem exists_text_eq (c : Compiler) (g : Graph) :
  ∃ before after : String,
    (∃ front, before = front ++ "text = ") ∧
    (∃ back, after = "\n" ++ back) ∧
    (∀ (c' : Compiler) (g' : Graph), c'.templates = c.templates → g.Alike g' →
      (c'.compile g').text
        = before ++ ScriptLiteral.literal (c'.sample g'.executionOrder) ++ after) ∧
    ∀ sample : String, ∃ inner : String,
      ScriptLiteral.literal sample = "\"" ++ inner ++ "\"" ∧
      (∀ ch ∈ inner.toList, 0x20 ≤ ch.toNat ∧ ¬(0x7F ≤ ch.toNat ∧ ch.toNat ≤ 0x9F)) ∧
      ScriptLiteral.QuotesEscaped inner.toList ∧
      ScriptLiteral.read (ScriptLiteral.literal sample ++ after).toList
        = some (sample.toList, after.toList) ∧
      ScriptLiteral.read (ScriptLiteral.literal sample).toList = some (sample.toList, [])
  := by
  obtain ⟨back, hback⟩ : ∃ back, c.rest (g.executionOrder.map (·.kind)) = "\n" ++ back := by
    apply exists_afterSample_eq
  use beforeSample, c.rest (g.executionOrder.map (·.kind))
  refine ⟨⟨_, beforeSample_eq⟩, ⟨back, hback⟩, ?_, ?_⟩
  · intro c' g' htemplates halike
    have htemplate : c'.template? = c.template? := by
      funext kind
      rw [template?, template?, htemplates]
    rw [text_compile, map_kind_executionOrder halike, rest, rest, htemplate]
  · intro sample
    obtain ⟨inner, hwritten, hcontrol, hquotes, hread⟩ :=
      ScriptLiteral.exists_written_eq sample.toList
    use String.ofList inner
    rw [ScriptLiteral.literal, hwritten, String.toList_ofList]
    refine ⟨?_, hcontrol, hquotes, ?_, ?_⟩
    · simp [String.append_assoc]
    · rw [String.toList_append, String.toList_ofList, ← hwritten, hread]
      rw [hback]
      simp
    · have halone := hread []
      simp at halone
      rw [String.toList_ofList, ← hwritten, halone]

/-- The graph of a single input with a label. -/
def labelled (label : String) : Graph :=
  ⟨[⟨"1", inputKind, .origin, .ofLabel label⟩], []⟩

/-- The label of a single input is the sample text. -/
theorem sample_labelled (c : Compiler) {label : String} (h : label ≠ "") :
  c.sample (labelled label).executionOrder = label
  := by
  have hvalid : (labelled label).Valid := by
    apply Graph.valid_of_nodes
    simp
  rw [c.sample_executionOrder hvalid, hvalid.head?_executionOrder]
  simp [labelled, NodeData.ofLabel, Option.filter, h]

/-- A label that tries to end the literal and the line gives the script of a harmless label with
another literal. -/
theorem exists_text_labelled_eq :
  (labelled "a").Alike (labelled "\"\nimport os\\") ∧
    ∃ before after : String,
      (standard.compile (labelled "a")).text = before ++ "\"a\"" ++ after ∧
      (standard.compile (labelled "\"\nimport os\\")).text
        = before ++ "\"\\\"\\nimport os\\\\\"" ++ after
  := by
  have halike : (labelled "a").Alike (labelled "\"\nimport os\\") := ⟨rfl, rfl⟩
  use halike
  obtain ⟨before, after, -, -, htext, -⟩ := exists_text_eq standard (labelled "a")
  use before, after
  constructor
  · rw [htext standard _ rfl (Graph.Alike.refl _), sample_labelled standard (by decide)]
    rfl
  · rw [htext standard _ rfl halike, sample_labelled standard (by decide)]
    rfl

/-! ### The layout of scripts -/

/-- The members of a list that do not stand at an earlier place as well. -/
def firsts (xs : List String) : List String :=
  chosen (fun others x => x ∉ others) xs

/-- A member is new to all members before it when it is new to the first occurrences. -/
theorem chosenAfter_eq_filter (front xs : List String) :
  chosenAfter (fun others x => x ∉ others) front xs
    = (firstOccurrences xs).filter fun x => x ∉ front
  := by
  induction xs generalizing front with
  | nil => rfl
  | cons x xs ih =>
    have hnext : chosenAfter (fun others x => x ∉ others) (front ++ [x]) xs
        = ((firstOccurrences xs).filter (· ≠ x)).filter fun y => y ∉ front := by
      rw [ih, List.filter_filter]
      apply List.filter_congr
      intro y _
      simp
    rw [chosenAfter_cons, hnext, firstOccurrences, List.filter_cons]

/-- The first occurrences in a list are its members without those that occur before. -/
theorem firstOccurrences_eq_firsts (xs : List String) :
  firstOccurrences xs = firsts xs
  := by
  rw [firsts, ← chosenAfter_nil, chosenAfter_eq_filter]
  simp

/-- The members that have a value can be listed together with their values. -/
theorem exists_pairs {α β : Type} (f : α → Option β) (xs : List α) :
  ∃ pairs : List (α × β),
    pairs.map Prod.fst = xs.filter (fun x => (f x).isSome) ∧
    (∀ p ∈ pairs, f p.1 = some p.2) ∧
    pairs.map Prod.snd = xs.filterMap f
  := by
  induction xs with
  | nil => exact ⟨[], rfl, by simp, rfl⟩
  | cons x xs ih =>
    obtain ⟨pairs, hfst, hvalue, hsnd⟩ := ih
    cases hx : f x with
    | none =>
      refine ⟨pairs, ?_, hvalue, ?_⟩
      · simp [hx, hfst]
      · simp [hx, hsnd]
    | some y =>
      refine ⟨(x, y) :: pairs, ?_, ?_, ?_⟩
      · simp [hx, hfst]
      · intro p hp
        rcases List.mem_cons.mp hp with rfl | hp
        · apply hx
        · apply hvalue p hp
      · simp [hx, hsnd]

/-- The nodes of a kind that has a template are all run, and no others. -/
theorem countP_kind_eq (c : Compiler) {order : List Node} {runs : List (Node × Template)}
    (h : runs.map Prod.fst = order.filter fun n => (c.template? n.kind).isSome) (kind : String) :
  runs.countP (·.1.kind = kind)
    = if (c.template? kind).isSome then order.countP (·.kind = kind) else 0
  := by
  have hcount : runs.countP (·.1.kind = kind) = (runs.map Prod.fst).countP (·.kind = kind) := by
    rw [List.countP_map]
    rfl
  rw [hcount, h, List.countP_filter]
  split
  · next hsome =>
    apply List.countP_congr
    intro n _
    simp only [Bool.and_eq_true, decide_eq_true_eq]
    constructor
    · rintro ⟨hn, -⟩
      apply hn
    · rintro rfl
      apply And.intro rfl hsome
  · next hnone =>
    apply List.countP_eq_zero.mpr
    intro n _
    simp only [Bool.and_eq_true, decide_eq_true_eq]
    rintro ⟨rfl, hsome⟩
    apply hnone hsome

/-- What stands after the sample text is made from the templates of the used kinds, and from those
of the visited nodes. -/
theorem rest_eq (c : Compiler) {order : List Node} {definitions : List (String × Template)}
    {runs : List (Node × Template)}
    (hdefinitions : definitions.map Prod.snd
      = (firstOccurrences (order.map (·.kind))).filterMap c.template?)
    (hruns : runs.map Prod.snd = order.filterMap fun n => c.template? n.kind) :
  c.rest (order.map (·.kind))
    = afterSample (definitions.map fun p => p.2.definition) (runs.map fun p => p.2.invocation)
        (runs.map fun p => p.2.print)
  := by
  have hvisited : order.filterMap (c.template? ∘ fun n => n.kind) = runs.map Prod.snd := hruns.symm
  simp only [rest, List.filterMap_map, hvisited, ← hdefinitions, List.map_map]
  rfl

/-- The script of a graph that an editor has made.  The kinds are those of the visited nodes, each
where it occurs first.  The first visited node is the first input that no edge leads to, and its
label is the sample text unless it has none or an empty one.  The text begins with a prologue that
holds the sample text; the definitions of the kinds that have a template follow, each once, with
line feeds between them, then an invocation and later a print for each visited node of a kind that
has a template, both made from the template of that kind.  So a kind is invoked and printed as
often as nodes of the kind are visited, if it has a template, and otherwise not at all. -/
theorem compile_layout (c : Compiler) {g : Graph} (h : g.Reachable) :
  (c.compile g).order = g.executionOrder.map (·.id) ∧
  (c.compile g).kinds = firsts (g.executionOrder.map (·.kind)) ∧
  (c.compile g).kinds.Nodup ∧
  g.executionOrder.head?
    = (g.nodes.find? fun n => n.kind = "textInput" ∧ ∀ e ∈ g.edges, e.target ≠ n.id) ∧
  ∃ (sample : String) (definitions : List (String × Template)) (runs : List (Node × Template)),
    sample = ((g.executionOrder.head?.bind fun n => n.data.label).filter (· ≠ "")).getD
      c.sampleText ∧
    definitions.map Prod.fst = (c.compile g).kinds.filter (fun k => (c.template? k).isSome) ∧
    (∀ p ∈ definitions, c.template? p.1 = some p.2) ∧
    runs.map Prod.fst = g.executionOrder.filter (fun n => (c.template? n.kind).isSome) ∧
    (∀ p ∈ runs, c.template? p.1.kind = some p.2) ∧
    (∀ kind, runs.countP (·.1.kind = kind)
      = if (c.template? kind).isSome then g.executionOrder.countP (·.kind = kind) else 0) ∧
    (c.compile g).text
      = "import spacy\n\n# Load spaCy model\nnlp = spacy.load(\"en_core_web_sm\")\n\n" ++
        "# Sample text input\n" ++ "text = " ++ ScriptLiteral.literal sample ++
        ("\ndoc = nlp(text)\n\n# Define pipeline functions\n" ++
          "\n".intercalate (definitions.map fun p => p.2.definition) ++
          "\n\n# Run the pipeline\n" ++ String.join (runs.map fun p => p.2.invocation ++ "\n") ++
          "\n# Print results\nprint(\"Results:\")\n" ++
          String.join (runs.map fun p => p.2.print ++ "\n"))
  := by
  have hkinds : (c.compile g).kinds = firstOccurrences (g.executionOrder.map (·.kind)) := rfl
  obtain ⟨definitions, hdefined, hdefinition, hused⟩ := exists_pairs c.template?
    (firstOccurrences (g.executionOrder.map (·.kind)))
  obtain ⟨runs, hrun, htemplate, hruns⟩ := exists_pairs (fun n : Node => c.template? n.kind)
    g.executionOrder
  refine ⟨rfl, ?_, ?_, h.valid.head?_executionOrder, c.sample g.executionOrder, definitions, runs,
    c.sample_executionOrder h.valid, hdefined, hdefinition, hrun, htemplate, ?_, ?_⟩
  · rw [hkinds, firstOccurrences_eq_firsts]
  · rw [hkinds]
    apply nodup_firstOccurrences
  · exact c.countP_kind_eq hrun
  · rw [text_compile, beforeSample_eq, c.rest_eq hused hruns, afterSample_eq]
    simp only [List.map_map, Function.comp_def]

/-- An input with a label, and two nodes of one kind that it leads to. -/
def fork : Document :=
  ⟨[⟨"1", inputKind, .origin, .ofLabel "Hi"⟩, .plain "2" "stemming", .plain "3" "stemming"],
    [⟨"1", "1", "2"⟩, ⟨"2", "1", "3"⟩]⟩

/-- The kind that two nodes share occurs once among the kinds and is printed twice, and the label
is the sample text. -/
theorem exists_layout_fork :
  fork.graph.Reachable ∧
    (standard.compile fork.graph).kinds = ["textInput", "stemming"] ∧
    ∃ (runs : List (Node × Template)) (front middle : String),
      runs.countP (·.1.kind = "stemming") = 2 ∧
      (standard.compile fork.graph).text
        = front ++ "\"Hi\"" ++ (middle ++ String.join (runs.map fun p => p.2.print ++ "\n"))
  := by
  have hreach : fork.graph.Reachable :=
    ⟨fun _ => "", ⟨fork.graph, 0⟩, [], .ofDocument (d := fork) (by cbv), trivial, rfl⟩
  have horder : fork.graph.executionOrder.map (·.kind) = ["textInput", "stemming", "stemming"] := by
    cbv
  obtain ⟨-, hkinds, -, hfirst, sample, definitions, runs, hsample, -, -, -, -, hcount, htext⟩ :=
    standard.compile_layout hreach
  have hstemming : (standard.template? "stemming").isSome = true := by
    decide
  use hreach
  constructor
  · rw [hkinds, horder]
    decide
  · have hhi : sample = "Hi" := by
      rw [hsample, hfirst]
      rfl
    have hvisited : fork.graph.executionOrder.countP (·.kind = "stemming")
        = (fork.graph.executionOrder.map (·.kind)).countP (· = "stemming") := by
      rw [List.countP_map]
      rfl
    have htwice : runs.countP (·.1.kind = "stemming") = 2 := by
      rw [hcount, if_pos hstemming, hvisited, horder]
      rfl
    have hliteral : ScriptLiteral.literal "Hi" = "\"Hi\"" := by
      rfl
    rw [hhi, hliteral] at htext
    exact ⟨runs, _, _, htwice, htext⟩

end Compiler

end TextPipeline
