import TextPipeline.CommandLine.Program
import TextPipeline.Proofs.Pipeline.DocumentText
import TextPipeline.Proofs.Pipeline.Inspection

/-!
# What the program answers about a file

A file can be validated and it can be compiled.  Both succeed exactly when the graph of the file
can be loaded.  When the file holds a document, validation prints a report about each node whose
id was taken and about each edge, and then tells how many problems it has reported, or how many
nodes and edges the document has.  The first problem is the one for which the graph is not loaded.
-/

namespace TextPipeline

namespace Program

variable {w : World} {arguments : List String} {environment : List (String × String)}
  {s : Settings} {r : Request} {path : String}

end Program

end TextPipeline
