import TextPipeline.Script.ExecutionOrder
import TextPipeline.Script.Literal
import TextPipeline.Script.Template

/-!
# Compilation

A graph is compiled to a script.  The script begins with a prologue that holds the sample text,
defines each operation that is used, runs the operation of each node in the execution order, and
prints the results in the same order.  Nodes of a kind without a template leave no trace in the
text.
-/

namespace TextPipeline

/-- The sample text of a script whose input node has no label. -/
def defaultSampleText : String := "SpaCy is an amazing NLP library!"

/-- The templates and the default sample text by which graphs are compiled. -/
structure Compiler where
  templates : Templates
  sampleText : String
deriving DecidableEq, Repr

/-- A script, with the ids of the visited nodes and their kinds without repetition. -/
structure Script where
  text : String
  order : List String
  kinds : List String
deriving DecidableEq, Repr

/-- A change to a compiler. -/
inductive Setup where
  /-- Nodes of a kind compile like those of a listed kind. -/
  | mapping (kind builtin : String)
  | template (kind : String) (template : Template)
  | sampleText (text : String)
deriving DecidableEq, Repr

namespace Compiler

/-- The compiler with the templates of the listed kinds. -/
def standard : Compiler := ⟨.builtin, defaultSampleText⟩

/-- The compiler after a change.  A mapping onto a kind without a template changes nothing. -/
def setUp (c : Compiler) : Setup → Compiler
  | .mapping kind builtin => match Templates.ofIdentifier? builtin with
    | some t => { c with templates := c.templates.insert kind t }
    | none => c
  | .template kind t => { c with templates := c.templates.insert kind t }
  | .sampleText text => { c with sampleText := text }

/-- The compiler after a list of changes to the standard one. -/
def ofSetups (setups : List Setup) : Compiler :=
  setups.foldl setUp standard

/-- The template for a kind. -/
def template? (c : Compiler) (kind : String) : Option Template :=
  c.templates.get? kind

/-- The list without the members that occur before. -/
def firstOccurrences : List String → List String
  | [] => []
  | s :: rest => s :: (firstOccurrences rest).filter (· ≠ s)

/-- The sample text for an execution order: the label of the first input node unless it is
empty. -/
def sample (c : Compiler) (order : List Node) : String :=
  match (order.find? Node.isInput).bind fun n => n.data.label with
  | some label => if label.isEmpty then c.sampleText else label
  | none => c.sampleText

/-- The text of a script up to the sample text. -/
def beforeSample : String :=
  lines ["import spacy", "", "# Load spaCy model", "nlp = spacy.load(\"en_core_web_sm\")", "",
    "# Sample text input", "text = "]

/-- The text of a script after the sample text, with its definitions, invocations and prints. -/
def afterSample (definitions invocations prints : List String) : String :=
  let line (s : String) := s ++ "\n"
  "\ndoc = nlp(text)\n\n# Define pipeline functions\n" ++ lines definitions ++
    "\n\n# Run the pipeline\n" ++ String.join (invocations.map line) ++
    "\n# Print results\nprint(\"Results:\")\n" ++ String.join (prints.map line)

/-- The script of an execution order. -/
def script (c : Compiler) (order : List Node) : Script :=
  let kinds := firstOccurrences (order.map (·.kind))
  let literal := String.ofList (ScriptLiteral.written (c.sample order).toList)
  let used := kinds.filterMap c.template?
  let run := order.filterMap fun n => c.template? n.kind
  { text := beforeSample ++ literal ++
      afterSample (used.map (·.definition)) (run.map (·.invocation)) (run.map (·.print))
    order := order.map (·.id)
    kinds := kinds }

/-- The script of a graph. -/
def compile (c : Compiler) (g : Graph) : Script :=
  c.script g.executionOrder

end Compiler

end TextPipeline
