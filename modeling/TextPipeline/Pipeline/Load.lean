import TextPipeline.Pipeline.Graph

/-!
# Loading

A graph is loaded from a text or from anything else that can be converted to a document.  Each
stage of loading has its own way to fail, and the stage is named in front of the cause.
-/

namespace TextPipeline

/-- What was done when loading or saving failed. -/
inductive LoadStage where
  | reading
  | writing
  | file
  | graph
  | conversion
deriving DecidableEq, Repr

/-- The message that names the stage in front of a cause. -/
def LoadStage.explain (stage : LoadStage) (cause : String) : String :=
  let lead := match stage with
    | .reading => "Failed to parse pipeline JSON: "
    | .writing => "Failed to serialize pipeline: "
    | .file => "Pipeline file error: "
    | .graph => "Pipeline graph is invalid: "
    | .conversion => "Pipeline conversion failed: "
  lead ++ cause

/-- Why a value cannot be converted to a document. -/
inductive ConversionError where
  | invalidData (cause : String)
deriving DecidableEq, Repr

/-- The message about a failed conversion. -/
def ConversionError.message : ConversionError → String
  | .invalidData cause => "Invalid custom data: " ++ cause

/-- The message about a text that is not read. -/
def Fault.message : Fault → String
  | .malformed => "the text is not JSON"
  | .mismatch cause => cause.message

/-- Why a graph is not loaded. -/
inductive LoadError where
  | unreadable (fault : Fault)
  | file (cause : String)
  | invalid (cause : GraphError)
  | conversion (cause : ConversionError)
deriving DecidableEq

/-- The message about a graph that is not loaded. -/
def LoadError.message : LoadError → String
  | .unreadable fault => LoadStage.reading.explain fault.message
  | .file cause => LoadStage.file.explain cause
  | .invalid cause => LoadStage.graph.explain cause.message
  | .conversion cause => LoadStage.conversion.explain cause.message

/-- The graph that a text stands for. -/
def Graph.parse (text : String) : Except LoadError Graph :=
  match Document.parse text with
  | .error fault => .error (.unreadable fault)
  | .ok d => (Graph.ofDocument d).mapError .invalid

/-- The types whose values can be converted to documents. -/
class PipelineSource (α : Type) where
  /-- The document of a value, unless the value has none. -/
  document : α → Except ConversionError Document

instance : PipelineSource Document where
  document d := .ok d

/-- The graph of a value.  The document of the value is checked like any other. -/
def Graph.ofSource {α : Type} [PipelineSource α] (a : α) : Except LoadError Graph :=
  match PipelineSource.document a with
  | .error cause => .error (.conversion cause)
  | .ok d => (Graph.ofDocument d).mapError .invalid

end TextPipeline
