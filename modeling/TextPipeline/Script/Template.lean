import TextPipeline.Pipeline.Kind

/-!
# Templates

A template is what a script holds for the nodes of one kind: a definition that stands once, and
for each node a statement that runs the operation and one that prints its result.  Every listed
kind but the input has a template of its own.
-/

namespace TextPipeline

/-- The parts of a script for one kind. -/
structure Template where
  definition : String
  invocation : String
  print : String
deriving DecidableEq, Inhabited, Repr

/-- The lines as one text, with line feeds between them. -/
def lines (ls : List String) : String :=
  "\n".intercalate ls

/-- The template of a listed kind. -/
def OperationKind.template? : OperationKind → Option Template
  | .textInput => none
  | .tokenization => some {
      definition := lines [
        "def tokenization(doc):",
        "    return [token.text for token in doc]"]
      invocation := "tokens = tokenization(doc)"
      print := "print(\"Tokens:\", tokens)" }
  | .posTagging => some {
      definition := lines [
        "def pos_tagging(doc):",
        "    return [(token.text, token.pos_) for token in doc]"]
      invocation := "pos_tags = pos_tagging(doc)"
      print := "print(\"POS Tags:\", pos_tags)" }
  | .namedEntityRecognition => some {
      definition := lines [
        "def named_entity_recognition(doc):",
        "    return [(ent.text, ent.label_) for ent in doc.ents]"]
      invocation := "ner = named_entity_recognition(doc)"
      print := "print(\"NER:\", ner)" }
  | .stopwordRemoval => some {
      definition := lines [
        "def stopword_removal(doc):",
        "    return [token.text for token in doc if not token.is_stop]"]
      invocation := "filtered_tokens = stopword_removal(doc)"
      print := "print(\"Filtered Tokens:\", filtered_tokens)" }
  | .lemmatization => some {
      definition := lines [
        "def lemmatization(doc):",
        "    return [token.lemma_ for token in doc]"]
      invocation := "lemmas = lemmatization(doc)"
      print := "print(\"Lemmas:\", lemmas)" }
  | .sentimentAnalysis => some {
      definition := lines [
        "from textblob import TextBlob",
        "",
        "def sentiment_analysis(text):  # expects plain string",
        "    blob = TextBlob(text)",
        "    return blob.sentiment"]
      invocation := "sentiment = sentiment_analysis(text)"
      print := "print(\"Sentiment:\", sentiment)" }
  | .dependencyParsing => some {
      definition := lines [
        "def dependency_parsing(doc):",
        "    return [(token.text, token.dep_, token.head.text) for token in doc]"]
      invocation := "dependencies = dependency_parsing(doc)"
      print := "print(\"Dependencies:\", dependencies)" }
  | .textClassification => some {
      definition := lines [
        "from textblob import TextBlob",
        "",
        "def text_classification(text):  # expects plain string",
        "    blob = TextBlob(text)",
        "    polarity = blob.sentiment.polarity",
        "    if polarity > 0.1:",
        "        return 'Positive'",
        "    elif polarity < -0.1:",
        "        return 'Negative'",
        "    else:",
        "        return 'Neutral'"]
      invocation := "classification = text_classification(text)"
      print := "print(\"Classification:\", classification)" }
  | .coreferenceResolution => some {
      definition := lines [
        "def coreference_resolution(doc):",
        "    return \"Coreference Resolution: Not implemented in spaCy by default\""]
      invocation := "coref_result = coreference_resolution(doc)"
      print := "print(\"Coreference Resolution:\", coref_result)" }
  | .keywordExtraction => some {
      definition := lines [
        "def keyword_extraction(doc):",
        "    return list(set([token.lemma_ for token in doc " ++
          "if token.is_alpha and not token.is_stop]))"]
      invocation := "keywords = keyword_extraction(doc)"
      print := "print(\"Keywords:\", keywords)" }
  | .stemming => some {
      definition := lines [
        "from nltk.stem import PorterStemmer",
        "import nltk",
        "nltk.download('punkt')",
        "stemmer = PorterStemmer()",
        "",
        "def stemming(doc):",
        "    return [stemmer.stem(token.text) for token in doc]"]
      invocation := "stems = stemming(doc)"
      print := "print(\"Stems:\", stems)" }
  | .textSummarization => some {
      definition := lines [
        "from sumy.parsers.plaintext import PlaintextParser",
        "from sumy.nlp.tokenizers import Tokenizer",
        "from sumy.summarizers.lsa import LsaSummarizer",
        "",
        "def text_summarization(text):  # expects plain string",
        "    if len(text.split()) < 10:",
        "        return 'Text too short to summarize'",
        "    parser = PlaintextParser.from_string(text, Tokenizer('english'))",
        "    summarizer = LsaSummarizer()",
        "    summary = summarizer(parser.document, 2)",
        "    return ' '.join(str(sentence) for sentence in summary)"]
      invocation := "summary = text_summarization(text)"
      print := "print(\"Summary:\", summary)" }

/-- Exactly the input has no template. -/
theorem OperationKind.template?_eq_none_iff (kind : OperationKind) :
  kind.template? = none ↔ kind = .textInput
  := by
  cases kind <;> simp [template?]

/-- The templates that a compiler knows, the last one given for a kind first. -/
abbrev Templates : Type := List (String × Template)

namespace Templates

/-- The template for a kind. -/
def get? (ts : Templates) (kind : String) : Option Template :=
  ts.lookup kind

/-- The templates with one for a kind, in place of any it had. -/
def insert (ts : Templates) (kind : String) (t : Template) : Templates :=
  (kind, t) :: ts

/-- The templates of the listed kinds. -/
def builtin : Templates :=
  OperationKind.all.filterMap fun kind => kind.template?.map fun t => (kind.identifier, t)

/-- The template of the listed kind with a given identifier. -/
def ofIdentifier? (name : String) : Option Template :=
  (OperationKind.ofIdentifier? name).bind OperationKind.template?

end Templates

end TextPipeline
