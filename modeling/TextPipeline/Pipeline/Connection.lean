import TextPipeline.Pipeline.CycleSearch

/-!
# Connections

Whether two nodes may be connected is asked before an edge is added.  An edge from a node to
itself, a second edge between the same nodes and an edge that would close a cycle are refused, and
the first of these reasons that applies is told.
-/

namespace TextPipeline

/-- Why a connection is refused. -/
inductive Rejection where
  | selfLoop
  | duplicate
  | cycle
deriving DecidableEq, Repr

/-- How much a notice matters. -/
inductive Severity where
  | error
  | warning
deriving DecidableEq, Repr

/-- What an editor shows about a refused connection. -/
structure Notice where
  title : String
  description : String
  severity : Severity
deriving DecidableEq, Repr

namespace Rejection

/-- The reason within a message. -/
def message : Rejection → String
  | .selfLoop => "a node cannot connect to itself"
  | .duplicate => "this connection already exists"
  | .cycle => "this connection would create a cycle"

/-- The notice about a refused connection. -/
def notice : Rejection → Notice
  | .selfLoop => ⟨"Invalid Connection", "A node cannot connect to itself.", .error⟩
  | .duplicate => ⟨"Duplicate Connection", "This connection already exists.", .warning⟩
  | .cycle => ⟨"Invalid Connection", "This connection would create a cycle.", .error⟩

end Rejection

/-- Whether some edge goes from `source` to `target`. -/
def hasEdge (edges : List Edge) (source target : String) : Bool :=
  edges.any fun e => e.source = source ∧ e.target = target

/-- The reason to refuse an edge from `source` to `target`, if there is one. -/
def checkConnection (edges : List Edge) (source target : String) : Option Rejection :=
  if source = target then some .selfLoop
  else if hasEdge edges source target then some .duplicate
  else if closesCycle edges source target then some .cycle
  else none

end TextPipeline
