import TextPipeline.Pipeline.Inspection
import TextPipeline.Proofs.EarlierMembers
import TextPipeline.Proofs.Pipeline.Loading
import TextPipeline.Proofs.Pipeline.Renaming

/-!
# Inspection and loading

Inspection goes through a document like loading, but gives the edges ids of its own and goes on
after a problem.  Up to the first problem both have graphs that are alike, and so they meet the
same first violation.  After it inspection is on its own: still there is a finding about each node
whose id stands at an earlier node too, and one about each edge.
-/

namespace TextPipeline

/-! ### One edge -/

namespace Graph

variable {t t' g g' : Graph} {e : Edge} {cause : GraphError}

end Graph

namespace Inspection

/-! ### Nodes -/

end Inspection

/-! ### Edges -/

namespace Inspection

end Inspection

end TextPipeline
