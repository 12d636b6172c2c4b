import TextPipeline.Json.Layout
import TextPipeline.Json.Record
import TextPipeline.Pipeline.Kind
import TextPipeline.Pipeline.NodeData

/-!
# Documents

A pipeline is exchanged as a document, a JSON object with the list of the nodes and the list of
the edges.  A document may be read that is no valid pipeline; here only its form is looked at.
-/

namespace TextPipeline

/-- The place of a node on the canvas. -/
structure Position where
  x : Double
  y : Double
deriving DecidableEq, Inhabited

/-- The place of a node that is given none. -/
def Position.origin : Position := ⟨.zero false, .zero false⟩

/-- A step of a pipeline. -/
structure Node where
  id : String
  kind : String
  position : Position
  data : NodeData
deriving DecidableEq, Inhabited

/-- A connection from the node that gives a result to the node that takes it. -/
structure Edge where
  id : String
  source : String
  target : String
deriving DecidableEq, Inhabited, Repr

/-- The nodes and the edges of a pipeline. -/
structure Document where
  nodes : List Node
  edges : List Edge
deriving DecidableEq, Inhabited

namespace Node

/-- A node at the origin without data. -/
def plain (id kind : String) : Node := ⟨id, kind, .origin, .empty⟩

/-- The kind of a node, if it is one of those listed. -/
def operationKind? (n : Node) : Option OperationKind :=
  OperationKind.ofIdentifier? n.kind

/-- Whether a text enters the pipeline at a node. -/
def isInput (n : Node) : Bool :=
  n.kind = inputKind

end Node

/-! ## Reading -/

/-- The coordinates read so far. -/
structure PositionDraft where
  x : Option Double
  y : Option Double

/-- How a position is read. -/
def positionRecord : Record PositionDraft Position where
  name := "Position"
  fields := [
    ⟨"x", (·.x.isSome), fun d => Reader.number.map fun v => { d with x := some v }⟩,
    ⟨"y", (·.y.isSome), fun d => Reader.number.map fun v => { d with y := some v }⟩]
  blank := ⟨none, none⟩
  finish d := match d.x, d.y with
    | some x, some y => .ok ⟨x, y⟩
    | none, _ => .error "x"
    | _, none => .error "y"

/-- The reader of positions. -/
def Position.reader (room : Nat) : Reader Position :=
  Record.reader room fun _ => positionRecord

/-- The fields of a node read so far. -/
structure NodeDraft where
  id : Option String
  kind : Option String
  position : Option Position
  data : Option NodeData

/-- How a node is read when `room` more arrays and objects may be open in it. -/
def nodeRecord (room : Nat) : Record NodeDraft Node where
  name := "Node"
  fields := [
    ⟨"id", (·.id.isSome), fun d => Reader.text.map fun v => { d with id := some v }⟩,
    ⟨"type", (·.kind.isSome), fun d => Reader.text.map fun v => { d with kind := some v }⟩,
    ⟨"position", (·.position.isSome),
      fun d => (Position.reader room).map fun v => { d with position := some v }⟩,
    ⟨"data", (·.data.isSome),
      fun d => (Reader.object room).map fun v => { d with data := some (.ofMembers v) }⟩]
  blank := ⟨none, none, none, none⟩
  finish d := match d.id, d.kind with
    | some id, some kind => .ok ⟨id, kind, d.position.getD .origin, d.data.getD .empty⟩
    | none, _ => .error "id"
    | _, none => .error "type"

/-- The reader of nodes. -/
def Node.reader (room : Nat) : Reader Node :=
  Record.reader room nodeRecord

/-- The fields of an edge read so far. -/
structure EdgeDraft where
  id : Option String
  source : Option String
  target : Option String

/-- How an edge is read. -/
def edgeRecord : Record EdgeDraft Edge where
  name := "Edge"
  fields := [
    ⟨"id", (·.id.isSome), fun d => Reader.text.map fun v => { d with id := some v }⟩,
    ⟨"source", (·.source.isSome), fun d => Reader.text.map fun v => { d with source := some v }⟩,
    ⟨"target", (·.target.isSome), fun d => Reader.text.map fun v => { d with target := some v }⟩]
  blank := ⟨none, none, none⟩
  finish d := match d.id, d.source, d.target with
    | some id, some source, some target => .ok ⟨id, source, target⟩
    | none, _, _ => .error "id"
    | _, none, _ => .error "source"
    | _, _, none => .error "target"

/-- The reader of edges. -/
def Edge.reader (room : Nat) : Reader Edge :=
  Record.reader room fun _ => edgeRecord

/-- The fields of a document read so far. -/
structure DocumentDraft where
  nodes : Option (List Node)
  edges : Option (List Edge)

/-- How a document is read when `room` more arrays and objects may be open in it. -/
def documentRecord (room : Nat) : Record DocumentDraft Document where
  name := "PipelineDocument"
  fields := [
    ⟨"nodes", (·.nodes.isSome),
      fun d => (Reader.array room Node.reader).map fun v => { d with nodes := some v }⟩,
    ⟨"edges", (·.edges.isSome),
      fun d => (Reader.array room Edge.reader).map fun v => { d with edges := some v }⟩]
  blank := ⟨none, none⟩
  finish d := .ok ⟨d.nodes.getD [], d.edges.getD []⟩

/-- The reader of documents. -/
def Document.reader (room : Nat) : Reader Document :=
  Record.reader room documentRecord

/-- The document that a text stands for. -/
def Document.parse (text : String) : Except Fault Document :=
  (Document.reader Json.maxDepth).whole (Token.scan text.toList)

/-! ## Writing -/

/-- The position as a value. -/
def Position.toJson (p : Position) : Json :=
  .obj [("x", .double p.x), ("y", .double p.y)]

/-- The data as a value. -/
def NodeData.toJson (data : NodeData) : Json :=
  .obj data.toMembers

/-- The node as a value. -/
def Node.toJson (n : Node) : Json :=
  .obj [("id", .str n.id), ("type", .str n.kind), ("position", n.position.toJson),
    ("data", n.data.toJson)]

/-- The edge as a value. -/
def Edge.toJson (e : Edge) : Json :=
  .obj [("id", .str e.id), ("source", .str e.source), ("target", .str e.target)]

/-- The document as a value. -/
def Document.toJson (d : Document) : Json :=
  .obj [("nodes", .arr (d.nodes.map Node.toJson)), ("edges", .arr (d.edges.map Edge.toJson))]

/-- The text of a document, spread over lines. -/
def Document.text (d : Document) : String :=
  d.toJson.text .indented

end TextPipeline
