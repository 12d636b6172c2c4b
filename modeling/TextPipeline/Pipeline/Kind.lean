/-!
# Operation kinds

The kinds of operations that a node of a pipeline may stand for, with the identifiers under which
documents name them and the titles under which an editor shows them.  A node keeps its kind as a
text, so that a pipeline may hold kinds that are not listed here.
-/

namespace TextPipeline

/-- The kinds of operations, the input of the text among them. -/
inductive OperationKind where
  | textInput
  | namedEntityRecognition
  | sentimentAnalysis
  | textSummarization
  | tokenization
  | stemming
  | lemmatization
  | posTagging
  | stopwordRemoval
  | dependencyParsing
  | textClassification
  | coreferenceResolution
  | keywordExtraction
deriving DecidableEq, Repr

/-- The identifier of the kind by which a text enters a pipeline. -/
def inputKind : String := "textInput"

namespace OperationKind

/-- All kinds, the input first and the operations in the order of a palette. -/
def all : List OperationKind :=
  [.textInput, .namedEntityRecognition, .sentimentAnalysis, .textSummarization, .tokenization,
    .stemming, .lemmatization, .posTagging, .stopwordRemoval, .dependencyParsing,
    .textClassification, .coreferenceResolution, .keywordExtraction]

/-- The identifier of a kind in documents. -/
def identifier : OperationKind → String
  | .textInput => inputKind
  | .namedEntityRecognition => "namedEntityRecognition"
  | .sentimentAnalysis => "sentimentAnalysis"
  | .textSummarization => "textSummarization"
  | .tokenization => "tokenization"
  | .stemming => "stemming"
  | .lemmatization => "lemmatization"
  | .posTagging => "posTagging"
  | .stopwordRemoval => "stopwordRemoval"
  | .dependencyParsing => "dependencyParsing"
  | .textClassification => "textClassification"
  | .coreferenceResolution => "coreferenceResolution"
  | .keywordExtraction => "keywordExtraction"

/-- The title of a kind in an editor. -/
def title : OperationKind → String
  | .textInput => "Text Input"
  | .namedEntityRecognition => "Named Entity Recognition"
  | .sentimentAnalysis => "Sentiment Analysis"
  | .textSummarization => "Text Summarization"
  | .tokenization => "Tokenization"
  | .stemming => "Stemming"
  | .lemmatization => "Lemmatization"
  | .posTagging => "POS Tagging"
  | .stopwordRemoval => "Stopword Removal"
  | .dependencyParsing => "Dependency Parsing"
  | .textClassification => "Text Classification"
  | .coreferenceResolution => "Coreference Resolution"
  | .keywordExtraction => "Keyword Extraction"

/-- Whether the kind is the input. -/
def isInput (kind : OperationKind) : Bool :=
  kind = .textInput

/-- The kind with a given identifier. -/
def ofIdentifier? (name : String) : Option OperationKind :=
  all.find? (·.identifier = name)

/-- The list of all kinds leaves none out. -/
theorem mem_all (kind : OperationKind) :
  kind ∈ all
  := by
  cases kind <;> decide

/-- A kind is found under its identifier. -/
theorem ofIdentifier?_identifier (kind : OperationKind) :
  ofIdentifier? kind.identifier = some kind
  := by
  cases kind <;> decide

/-- The identifier of a kind that is found is the one it was looked for by. -/
theorem identifier_of_ofIdentifier? {name : String} {kind : OperationKind}
    (h : ofIdentifier? name = some kind) :
  kind.identifier = name
  := by
  simpa using List.find?_some h

end OperationKind

end TextPipeline
