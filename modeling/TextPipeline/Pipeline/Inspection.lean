import TextPipeline.Pipeline.Graph

/-!
# Inspection

A document is inspected by adding its nodes and edges one after the other, like in loading, but
without stopping at one that is refused.  Each edge and each refused node gives a finding.
-/

namespace TextPipeline

/-- What is found about a node or an edge of a document. -/
inductive Finding where
  | refusedNode (cause : GraphError)
  | refusedEdge (edge : Edge) (cause : GraphError)
  | accepted (edge : Edge)
deriving DecidableEq, Repr

namespace Finding

/-- Whether a finding is a problem. -/
def isProblem : Finding → Bool
  | .accepted _ => false
  | _ => true

/-- The line about a finding. -/
def line : Finding → String
  | .refusedNode cause => "  x " ++ cause.message
  | .refusedEdge e cause => match cause.rejection? with
    | some reason =>
      "  x edge " ++ e.id ++ ": " ++ e.source ++ " -> " ++ e.target ++ ": " ++
        reason.notice.title ++ " (" ++ reason.notice.description ++ ")"
    | none => "  x edge " ++ e.id ++ ": " ++ cause.message
  | .accepted e => "  ok edge " ++ e.id ++ ": " ++ e.source ++ " -> " ++ e.target

end Finding

namespace Inspection

/-- The findings about a list of nodes, and the graph with those that are accepted. -/
def nodes (g : Graph) : List Node → List Finding × Graph
  | [] => ([], g)
  | n :: ns => match g.addNode n with
    | .ok g' => nodes g' ns
    | .error cause =>
      let (findings, g') := nodes g ns
      (.refusedNode cause :: findings, g')

/-- The findings about a list of edges, and the graph with those that are accepted, under ids of
their own. -/
def edges (g : Graph) : List Edge → List Finding × Graph
  | [] => ([], g)
  | e :: es => match g.connect e.source e.target with
    | .ok (_, g') =>
      let (findings, g'') := edges g' es
      (.accepted e :: findings, g'')
    | .error cause =>
      let (findings, g') := edges g es
      (.refusedEdge e cause :: findings, g')

/-- The findings about a document, and the graph of what is accepted. -/
def document (d : Document) : List Finding × Graph :=
  let (aboutNodes, g) := nodes .empty d.nodes
  let (aboutEdges, g') := edges g d.edges
  (aboutNodes ++ aboutEdges, g')

end Inspection

end TextPipeline
