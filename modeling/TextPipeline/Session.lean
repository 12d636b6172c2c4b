import TextPipeline.Pipeline.Load
import TextPipeline.Script.Compiler

/-!
# Editing sessions

A session is a graph that is changed by one command after the other.  Commands that only ask leave
the graph as it is, and so do commands that are refused.  New nodes for operations take their ids
from a supply, one after the other.
-/

namespace TextPipeline

/-- What an editor may be told to do. -/
inductive Command where
  | clear
  | beginWithInput
  | load (text : String)
  | addNode (node : Node)
  | addOperation (kind : OperationKind) (position : Position)
  | removeNode (id : String)
  | removeEdge (id : String)
  | update (id field value : String)
  | connect (source target : String)
  | node (id : String)
  | contains (id : String)
  | hasEdge (source target : String)
  | isEmpty
  | kindOf (id : String)
  | text
  | compile (compiler : Compiler)
  /-- Ask whether the graph of the document of the graph is the graph itself. -/
  | rebuild

/-- What an editor answers to a command. -/
inductive Answer where
  | done
  | id (id : String)
  | node (node : Option Node)
  | edge (edge : Option Edge)
  | flag (value : Bool)
  | kind (kind : Option (Option OperationKind × Bool))
  | graph (graph : Graph)
  | text (text : String)
  | script (script : Script)
  | refused (cause : GraphError)
  | notLoaded (cause : LoadError)
deriving DecidableEq

/-- A graph that is edited, and the number of ids that have been drawn for it. -/
structure Session where
  graph : Graph
  drawn : Nat
deriving DecidableEq

namespace Session

/-- The session before the first command. -/
def start : Session := ⟨.empty, 0⟩

/-- The session with another graph, or the session as it was if an edit was refused. -/
def edited (s : Session) : Except GraphError Graph → Answer × Session
  | .ok g => (.done, { s with graph := g })
  | .error cause => (.refused cause, s)

/-- What is answered to a command, and the session after it. -/
def perform (supply : Nat → String) (s : Session) : Command → Answer × Session
  | .clear => (.done, { s with graph := .empty })
  | .beginWithInput => (.done, { s with graph := .withInput })
  | .load text => match Graph.parse text with
    | .ok g => (.graph g, { s with graph := g })
    | .error cause => (.notLoaded cause, s)
  | .addNode n => s.edited (s.graph.addNode n)
  | .addOperation kind position =>
    let id := supply s.drawn
    (.id id, ⟨s.graph.addOperation id kind position, s.drawn + 1⟩)
  | .removeNode id => match s.graph.removeNode id with
    | some (n, g) => (.node (some n), { s with graph := g })
    | none => (.node none, s)
  | .removeEdge id => match s.graph.removeEdge id with
    | some (e, g) => (.edge (some e), { s with graph := g })
    | none => (.edge none, s)
  | .update id field value => match s.graph.updateNode id field value with
    | .ok g => (.node (g.node? id), { s with graph := g })
    | .error cause => (.refused cause, s)
  | .connect source target => match s.graph.connect source target with
    | .ok (id, g) => (.id id, { s with graph := g })
    | .error cause => (.refused cause, s)
  | .node id => (.node (s.graph.node? id), s)
  | .contains id => (.flag (s.graph.contains id), s)
  | .hasEdge source target => (.flag (s.graph.hasEdge source target), s)
  | .isEmpty => (.flag s.graph.isEmpty, s)
  | .kindOf id => (.kind ((s.graph.node? id).map fun n => (n.operationKind?, n.isInput)), s)
  | .text => (.text s.graph.text, s)
  | .compile compiler => (.script (compiler.compile s.graph), s)
  | .rebuild => match Graph.ofDocument s.graph.toDocument with
    | .ok g => (.flag (g = s.graph), s)
    | .error cause => (.refused cause, s)

/-- What is answered to a list of commands, and the session after the last one. -/
def run (supply : Nat → String) (s : Session) : List Command → List Answer × Session
  | [] => ([], s)
  | c :: cs =>
    let (answer, s') := s.perform supply c
    let (answers, s'') := run supply s' cs
    (answer :: answers, s'')

end Session

end TextPipeline
