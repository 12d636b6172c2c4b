import TextPipeline.Pipeline.Connection

/-!
# Graphs

A graph is the list of the nodes and the list of the edges of a pipeline, as they are at a point
of its editing.  An edit either gives the graph after it or says why it is refused, and a refused
edit leaves no trace.  Graphs made by edits have nodes with distinct ids, edges between nodes of
the graph, at most one edge between two nodes, and no cycle.
-/

namespace TextPipeline

/-- The nodes and edges of a pipeline. -/
structure Graph where
  nodes : List Node
  edges : List Edge
deriving DecidableEq, Inhabited

/-- Why an edit is refused. -/
inductive GraphError where
  | rejected (source target : String) (reason : Rejection)
  | nodeNotFound (id : String)
  | duplicateNode (id : String)
deriving DecidableEq, Repr

namespace GraphError

/-- The message about a refused edit. -/
def message : GraphError → String
  | .rejected source target reason =>
    "Connection from '" ++ source ++ "' to '" ++ target ++ "' was rejected: " ++ reason.message
  | .nodeNotFound id => "Node '" ++ id ++ "' not found in the pipeline graph"
  | .duplicateNode id => "Node id '" ++ id ++ "' is already used in the pipeline graph"

/-- The reason to refuse a connection, if a connection was refused. -/
def rejection? : GraphError → Option Rejection
  | .rejected _ _ reason => some reason
  | _ => none

end GraphError

namespace Graph

/-- The graph without any node. -/
def empty : Graph := ⟨[], []⟩

/-- The graph that an editor begins with: a single node for the input. -/
def withInput : Graph :=
  let hundred : Double := ⟨false, 7036874417766400, 1028, by decide⟩
  ⟨[⟨"1", inputKind, ⟨hundred, hundred⟩, .ofText "Input Text"⟩], []⟩

/-- The node with a given id. -/
def node? (g : Graph) (id : String) : Option Node :=
  g.nodes.find? (·.id = id)

/-- Whether some node has a given id. -/
def contains (g : Graph) (id : String) : Bool :=
  (g.node? id).isSome

/-- Whether an edge goes from `source` to `target`. -/
def hasEdge (g : Graph) (source target : String) : Bool :=
  TextPipeline.hasEdge g.edges source target

/-- Whether there are no nodes. -/
def isEmpty (g : Graph) : Bool :=
  g.nodes.isEmpty

/-- The graph with one more node, whose id must not be taken. -/
def addNode (g : Graph) (n : Node) : Except GraphError Graph :=
  if g.contains n.id then .error (.duplicateNode n.id)
  else .ok { g with nodes := g.nodes ++ [n] }

/-- The node that an editor makes for an operation, with the title of its kind as its text. -/
def operationNode (id : String) (kind : OperationKind) (position : Position) : Node :=
  ⟨id, kind.identifier, position, .ofText kind.title⟩

/-- The graph with one more node for an operation, under an id that is known to be fresh. -/
def addOperation (g : Graph) (id : String) (kind : OperationKind) (position : Position) : Graph :=
  { g with nodes := g.nodes ++ [operationNode id kind position] }

/-- The node with a given id, and the graph without it and without the edges that touch it. -/
def removeNode (g : Graph) (id : String) : Option (Node × Graph) :=
  (g.node? id).map fun n =>
    (n, ⟨g.nodes.eraseP (·.id = id), g.edges.filter fun e => e.source ≠ id ∧ e.target ≠ id⟩)

/-- The first edge with a given id, and the graph without it. -/
def removeEdge (g : Graph) (id : String) : Option (Edge × Graph) :=
  (g.edges.find? (·.id = id)).map fun e =>
    (e, { g with edges := g.edges.eraseP (·.id = id) })

/-- The list with the first member that satisfies `p` changed. -/
def updateFirst {α : Type} (p : α → Bool) (f : α → α) : List α → List α
  | [] => []
  | a :: as => if p a then f a :: as else a :: updateFirst p f as

/-- The graph with a text in the data of a node. -/
def updateNode (g : Graph) (id field value : String) : Except GraphError Graph :=
  if g.contains id then
    let set (n : Node) : Node := { n with data := n.data.setField field value }
    .ok { g with nodes := updateFirst (·.id = id) set g.nodes }
  else .error (.nodeNotFound id)

/-- The id for one more edge: the first decimal number above the number of edges that no edge has
as its id.  Among one more numbers than there are edges one is always free. -/
def nextEdgeId (edges : List Edge) : String :=
  let candidates := (List.range (edges.length + 1)).map fun n => toString (edges.length + 1 + n)
  (candidates.find? fun id => edges.all fun e => e.id ≠ id).getD ""

/-- The error that stands against an edge from `source` to `target`, if there is one.  Both ends
must be nodes before the edge itself is looked at. -/
def refusal? (g : Graph) (source target : String) : Option GraphError :=
  if !g.contains source then some (.nodeNotFound source)
  else if !g.contains target then some (.nodeNotFound target)
  else (checkConnection g.edges source target).map (.rejected source target)

/-- The graph with an edge at the end of its list, if nothing stands against it. -/
def addEdge (g : Graph) (e : Edge) : Except GraphError Graph :=
  match g.refusal? e.source e.target with
  | some error => .error error
  | none => .ok { g with edges := g.edges ++ [e] }

/-- The id of a new edge from `source` to `target`, and the graph with it. -/
def connect (g : Graph) (source target : String) : Except GraphError (String × Graph) :=
  let id := nextEdgeId g.edges
  (g.addEdge ⟨id, source, target⟩).map fun g' => (id, g')

/-- The graph of a document, whose nodes and edges are added one after the other. -/
def ofDocument (d : Document) : Except GraphError Graph := do
  let g ← d.nodes.foldlM addNode empty
  d.edges.foldlM addEdge g

/-- The document of a graph. -/
def toDocument (g : Graph) : Document := ⟨g.nodes, g.edges⟩

/-- The text of a graph. -/
def text (g : Graph) : String := g.toDocument.text

end Graph

end TextPipeline
