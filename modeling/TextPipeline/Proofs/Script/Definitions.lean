import Mathlib
import TextPipeline.Proofs.Editing
import TextPipeline.Proofs.Script.Compiler
import TextPipeline.Proofs.Script.Setups

/-!
# Definitions in scripts

When kinds are mapped onto listed operations, each kind of the visited nodes stands for at most one
operation.  The script defines the operation once for each such kind, however many nodes of the kind
are visited.  So an operation is defined once as long as the visited nodes know it under a single
name; kinds of different names are not compared by what they stand for, and two names of one
operation bring its definition twice.
-/

namespace TextPipeline

namespace OperationKind

/-- The listed operation of a given name.  The input is no operation. -/
def operation? (name : String) : Option OperationKind :=
  (ofIdentifier? name).filter (· ≠ .textInput)

/-- Operations have a template, and the input has none. -/
theorem bind_operation? (name : String) :
  (operation? name).bind template? = Templates.ofIdentifier? name
  := by
  rw [operation?, Templates.ofIdentifier?]
  cases hfound : ofIdentifier? name with
  | none => rfl
  | some kind =>
    by_cases hkind : kind = .textInput
    · simp [Option.filter, hkind, template?]
    · simp [Option.filter, hkind]

/-- An operation has a template. -/
theorem isSome_template?_of_operation? {name : String} {kind : OperationKind}
    (h : operation? name = some kind) :
  kind.template?.isSome = true
  := by
  obtain ⟨-, hkind⟩ := Option.filter_eq_some_iff.mp h
  rw [← Option.ne_none_iff_isSome, ne_eq, kind.template?_eq_none_iff]
  simpa using hkind

/-- No two operations have the same definition. -/
theorem eq_of_definition_eq {kind kind' : OperationKind} {t t' : Template}
    (h : kind.template? = some t) (h' : kind'.template? = some t')
    (hdefinition : t.definition = t'.definition) :
  kind = kind'
  := by
  have hnodup : (Templates.builtin.map (·.2.definition)).Nodup := by
    decide
  have hmem : ∀ {kind : OperationKind} {t : Template}, kind.template? = some t →
      (kind.identifier, t) ∈ Templates.builtin := by
    intro kind t ht
    apply List.mem_filterMap.mpr ⟨kind, kind.mem_all, _⟩
    rw [ht, Option.map_some]
  have heq := List.inj_on_of_nodup_map hnodup (hmem h) (hmem h') hdefinition
  apply identifier_injective (congrArg Prod.fst heq)

end OperationKind

namespace Compiler

variable {mappings : List (String × String)} {g : Graph}

/-- The compiler that maps kinds onto others, by one mapping after the other. -/
def ofMappings (mappings : List (String × String)) : Compiler :=
  ofSetups (mappings.map fun m => .mapping m.1 m.2)

/-- The operation that a kind stands for: the one that the last mapping of the kind onto an
operation names, or else the operation of this name. -/
def operation? (mappings : List (String × String)) (kind : String) : Option OperationKind :=
  (mappings.reverse.findSome? fun m => if m.1 = kind then OperationKind.operation? m.2 else none).or
    (OperationKind.operation? kind)

/-- The definitions that the script of a graph holds, in their order. -/
def definitions (c : Compiler) (g : Graph) : List String :=
  ((c.compile g).kinds.filterMap c.template?).map (·.definition)

/-- The definitions stand behind the sample text and their headline, with line feeds between them. -/
theorem exists_text_eq_definitions (c : Compiler) (g : Graph) :
  ∃ back, (c.compile g).text
    = beforeSample ++ ScriptLiteral.literal (c.sample g.executionOrder) ++
        ("\ndoc = nlp(text)\n\n# Define pipeline functions\n" ++
          "\n".intercalate (c.definitions g) ++ "\n\n# Run the pipeline\n" ++ back)
  := by
  rw [text_compile, rest, afterSample_eq]
  simp only [String.append_assoc]
  exact ⟨_, rfl⟩

/-! ### What kinds stand for -/

/-- What a mapping gives a kind is the template of the operation that the kind is mapped onto. -/
theorem given?_mapping (kind : String) (m : String × String) :
  (Setup.mapping m.1 m.2).given? kind
    = (if m.1 = kind then OperationKind.operation? m.2 else none).bind OperationKind.template?
  := by
  rw [Setup.given?]
  split
  · rw [OperationKind.bind_operation?]
  · rfl

/-- The template of a kind is the one of the operation that the kind stands for. -/
theorem template?_ofMappings (mappings : List (String × String)) (kind : String) :
  (ofMappings mappings).template? kind = (operation? mappings kind).bind OperationKind.template?
  := by
  rw [ofMappings, template?_ofSetups, operation?, ← List.map_reverse, List.findSome?_map]
  induction mappings.reverse with
  | nil => apply (OperationKind.bind_operation? kind).symm
  | cons m ms ih =>
    rw [List.findSome?_cons, List.findSome?_cons, Function.comp_apply, given?_mapping]
    cases honto : if m.1 = kind then OperationKind.operation? m.2 else none with
    | none => apply ih
    | some builtin =>
      obtain ⟨-, hbuiltin⟩ := Option.ite_none_right_eq_some.mp honto
      obtain ⟨t, ht⟩ := Option.isSome_iff_exists.mp
        (OperationKind.isSome_template?_of_operation? hbuiltin)
      simp [ht]

/-- A kind that has the definition of an operation stands for it. -/
theorem definition_ofMappings_iff {builtin : OperationKind} {t : Template}
    (ht : builtin.template? = some t) (kind : String) :
  ((ofMappings mappings).template? kind).map (·.definition) = some t.definition
    ↔ operation? mappings kind = some builtin
  := by
  rw [template?_ofMappings, Option.map_eq_some_iff]
  constructor
  · rintro ⟨t', ht', hdefinition⟩
    obtain ⟨builtin', hoperation, ht'⟩ := Option.bind_eq_some_iff.mp ht'
    rw [hoperation, OperationKind.eq_of_definition_eq ht' ht hdefinition]
  · intro hoperation
    use t, by rw [hoperation, Option.bind_some, ht]

/-- The definition of an operation stands among the definitions once for each used kind that stands
for the operation. -/
theorem count_definitions_eq {builtin : OperationKind} {t : Template}
    (ht : builtin.template? = some t) (mappings : List (String × String)) (g : Graph) :
  ((ofMappings mappings).definitions g).count t.definition
    = ((ofMappings mappings).compile g).kinds.countP fun kind =>
        operation? mappings kind = some builtin
  := by
  rw [definitions, List.map_filterMap, List.count, List.countP_filterMap]
  apply List.countP_congr
  intro kind _
  rw [decide_eq_true_eq, ← definition_ofMappings_iff ht]
  cases ((ofMappings mappings).template? kind).map (·.definition) with
  | none => simp
  | some d => simp

/-- The kinds of a script are those of the visited nodes. -/
theorem mem_kinds_iff (c : Compiler) {kind : String} :
  kind ∈ (c.compile g).kinds ↔ ∃ n ∈ g.executionOrder, n.kind = kind
  := by
  rw [compile, script, mem_firstOccurrences, List.mem_map]

/-- A compiler that has been given any mappings of kinds writes the definition of an operation once
for each kind among the visited nodes that stands for the operation, and it writes no other
definitions.  The kinds are told apart by their names, each of which counts once, however many nodes
have it.  So the definition is written at most once if the visited nodes know the operation under a
single name, and twice when they know it under two. -/
theorem count_definitions (mappings : List (String × String)) (g : Graph) {builtin : OperationKind}
    {t : Template} (ht : builtin.template? = some t) :
  (∃ back, ((ofMappings mappings).compile g).text
    = beforeSample ++ ScriptLiteral.literal ((ofMappings mappings).sample g.executionOrder) ++
        ("\ndoc = nlp(text)\n\n# Define pipeline functions\n" ++
          "\n".intercalate ((ofMappings mappings).definitions g) ++
          "\n\n# Run the pipeline\n" ++ back)) ∧
  ((ofMappings mappings).compile g).kinds.Nodup ∧
  ((ofMappings mappings).definitions g).count t.definition
    = ((ofMappings mappings).compile g).kinds.countP (fun kind =>
        operation? mappings kind = some builtin) ∧
  ((∀ a ∈ g.executionOrder, ∀ b ∈ g.executionOrder, operation? mappings a.kind = some builtin →
      operation? mappings b.kind = some builtin → a.kind = b.kind) →
    ((ofMappings mappings).definitions g).count t.definition ≤ 1) ∧
  ∀ d ∈ (ofMappings mappings).definitions g, ∃ (operation : OperationKind) (t' : Template),
    operation.template? = some t' ∧ d = t'.definition
  := by
  refine ⟨exists_text_eq_definitions _ g, nodup_firstOccurrences _,
    count_definitions_eq ht mappings g, ?_, ?_⟩
  · intro hsingle
    have hkinds : ((ofMappings mappings).compile g).kinds.Nodup := nodup_firstOccurrences _
    rw [count_definitions_eq ht, List.countP_eq_length_filter,
      ← List.toFinset_card_of_nodup (hkinds.filter _), Finset.card_le_one]
    simp only [List.mem_toFinset, List.mem_filter, mem_kinds_iff, decide_eq_true_eq]
    rintro _ ⟨⟨a, ha, rfl⟩, hoperation⟩ _ ⟨⟨b, hb, rfl⟩, hoperation'⟩
    apply hsingle a ha b hb hoperation hoperation'
  · intro d hd
    obtain ⟨t', ht', rfl⟩ := List.mem_map.mp hd
    obtain ⟨kind, -, hkind⟩ := List.mem_filterMap.mp ht'
    rw [template?_ofMappings] at hkind
    obtain ⟨operation, -, hoperation⟩ := Option.bind_eq_some_iff.mp hkind
    use operation, t', hoperation

/-- The two nodes of the fork have one kind, which is mapped onto an operation, and the operation
is defined once. -/
theorem count_definitions_fork :
  ∃ t, OperationKind.tokenization.template? = some t ∧
    (∀ a ∈ fork.graph.executionOrder, ∀ b ∈ fork.graph.executionOrder,
      operation? [("stemming", "tokenization")] a.kind = some .tokenization →
      operation? [("stemming", "tokenization")] b.kind = some .tokenization → a.kind = b.kind) ∧
    ((ofMappings [("stemming", "tokenization")]).definitions fork.graph).count t.definition = 1 ∧
    ((ofMappings [("stemming", "tokenization")]).definitions fork.graph).count t.definition ≤ 1
  := by
  obtain ⟨t, ht⟩ : ∃ t, OperationKind.tokenization.template? = some t := ⟨_, rfl⟩
  have hkinds : fork.graph.executionOrder.map (·.kind) = ["textInput", "stemming", "stemming"] := by
    cbv
  obtain ⟨-, -, hcount, hsingle, -⟩ :=
    count_definitions [("stemming", "tokenization")] fork.graph ht
  have hname : ∀ n ∈ fork.graph.executionOrder,
      operation? [("stemming", "tokenization")] n.kind = some .tokenization →
      n.kind = "stemming" := by
    intro n hn
    have hkind := List.mem_map_of_mem (f := (·.kind)) hn
    rw [hkinds] at hkind
    revert hkind
    generalize n.kind = kind
    revert kind
    decide
  have honce : ∀ a ∈ fork.graph.executionOrder, ∀ b ∈ fork.graph.executionOrder,
      operation? [("stemming", "tokenization")] a.kind = some .tokenization →
      operation? [("stemming", "tokenization")] b.kind = some .tokenization →
      a.kind = b.kind := by
    intro a ha b hb hoperation hoperation'
    rw [hname a ha hoperation, hname b hb hoperation']
  refine ⟨t, ht, honce, ?_, hsingle honce⟩
  rw [hcount, compile, script, hkinds]
  decide

/-- An input that leads to a node of an operation and to a node of a kind that is not listed. -/
def sharedOperation : Document :=
  ⟨[⟨"1", inputKind, .origin, .ofLabel "Hi"⟩, .plain "2" "tokenization", .plain "3" "mine"],
    [⟨"1", "1", "2"⟩, ⟨"2", "1", "3"⟩]⟩

/-- It is not so that an operation is never defined more than once.  When a kind is mapped onto an
operation and both are used, the script holds the definition of the operation twice. -/
theorem definition_twice :
  sharedOperation.graph.Reachable ∧
    (∃ back, ((ofMappings [("mine", "tokenization")]).compile sharedOperation.graph).text
      = beforeSample ++ "\"Hi\"" ++ ("\ndoc = nlp(text)\n\n# Define pipeline functions\n" ++
        ("def tokenization(doc):\n    return [token.text for token in doc]" ++ "\n" ++
          "def tokenization(doc):\n    return [token.text for token in doc]") ++
        "\n\n# Run the pipeline\n" ++ back)) ∧
    ¬ ((ofMappings [("mine", "tokenization")]).definitions sharedOperation.graph).count
      "def tokenization(doc):\n    return [token.text for token in doc]" ≤ 1
  := by
  have hreach : sharedOperation.graph.Reachable :=
    Graph.reachable_of_ofDocument (d := sharedOperation) (by cbv)
  have hkinds : sharedOperation.graph.executionOrder.map (·.kind)
      = ["textInput", "tokenization", "mine"] := by
    cbv
  have hsample : (ofMappings [("mine", "tokenization")]).sample
      sharedOperation.graph.executionOrder = "Hi" := by
    rw [sample_executionOrder _ hreach.valid, hreach.valid.head?_executionOrder]
    rfl
  have hdefinitions : (ofMappings [("mine", "tokenization")]).definitions sharedOperation.graph
      = ["def tokenization(doc):\n    return [token.text for token in doc]",
        "def tokenization(doc):\n    return [token.text for token in doc]"] := by
    rw [definitions, compile, script, hkinds]
    decide
  have hliteral : ScriptLiteral.literal "Hi" = "\"Hi\"" := by
    rfl
  refine ⟨hreach, ?_, ?_⟩
  · obtain ⟨back, hback⟩ := exists_text_eq_definitions (ofMappings [("mine", "tokenization")])
      sharedOperation.graph
    have hjoin : ∀ a b : String, "\n".intercalate [a, b] = a ++ "\n" ++ b := by
      intro a b
      rfl
    rw [hsample, hdefinitions, hliteral, hjoin] at hback
    exact ⟨back, hback⟩
  · rw [hdefinitions]
    simp

end Compiler

end TextPipeline
