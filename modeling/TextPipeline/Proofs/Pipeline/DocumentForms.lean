import TextPipeline.Pipeline.Document
import TextPipeline.Proofs.Json.Records
import TextPipeline.Proofs.Pipeline.NodeData

/-!
# Forms of documents

A document is written with the fields of itself, of its nodes and edges and of the positions in
any order, and with members of other names at any places of these objects.  A coordinate may be
written as any number that is rounded to it.  The data of a node has no members beside its own.
Whatever form a document has, it is read as the document.
-/

namespace TextPipeline

open Token (IsValue arrayOf recordOf)

/-! ### Forms -/

/-- A number is rounded to a number of the binary64 format. -/
inductive Number.Rounds : Number → Double → Prop where
  | double (d : Double) : Rounds (.double d) d
  | int {i : Int} {d : Double} (h : Double.nearest (i < 0) i.natAbs 1 = some d) :
      Rounds (.int i) d

/-- A position may be written as the tokens. -/
inductive Position.WrittenAs (p : Position) : List Token → Prop where
  | mk {x y : Number} {members : Named (List Token)} (hx : x.Rounds p.x) (hy : y.Rounds p.y)
      (h : FieldsAmong [("x", [.number x]), ("y", [.number y])] members) :
      p.WrittenAs (recordOf members)

/-- An edge may be written as the tokens. -/
inductive Edge.WrittenAs (e : Edge) : List Token → Prop where
  | mk {members : Named (List Token)}
      (h : FieldsAmong [("id", [.text e.id]), ("source", [.text e.source]),
        ("target", [.text e.target])] members) :
      e.WrittenAs (recordOf members)

/-- A node may be written as the tokens. -/
inductive Node.WrittenAs (n : Node) : List Token → Prop where
  | mk {position data : List Token} {members : Named (List Token)}
      (hposition : n.position.WrittenAs position) (hdata : n.data.toJson.WrittenAs data)
      (h : FieldsAmong [("id", [.text n.id]), ("type", [.text n.kind]), ("position", position),
        ("data", data)] members) :
      n.WrittenAs (recordOf members)

/-- A document may be written as the tokens. -/
inductive Document.WrittenAs (d : Document) : List Token → Prop where
  | mk {nodes edges : List (List Token)} {members : Named (List Token)}
      (hnodes : List.Forall₂ Node.WrittenAs d.nodes nodes)
      (hedges : List.Forall₂ Edge.WrittenAs d.edges edges)
      (h : FieldsAmong [("nodes", arrayOf nodes), ("edges", arrayOf edges)] members) :
      d.WrittenAs (recordOf members)

/-! ### Positions -/

/-- A whole number is read as what it is rounded to, whatever the way of rounding.

The way of rounding is left open, since the powers of two in it are too large to compute with. -/
theorem Reader.reads_rounded (near : Bool → Nat → Nat → Option Double) {i : Int} {d : Double}
    (h : near (i < 0) i.natAbs 1 = some d) :
  (Reader.single fun
    | .number (.double d) => .ok d
    | .number (.int n) => match near (n < 0) n.natAbs 1 with
      | some d => .ok d
      | none => .error .malformed
    | t => .error (.instead .number [t])).Reads [.number (.int i)] d
  := by
  apply Reader.reads_single
  simp only [h]

/-- A number is read as the one that it is rounded to. -/
theorem Number.Rounds.reads {n : Number} {d : Double} (h : n.Rounds d) :
  Reader.number.Reads [.number n] d
  := by
  cases h with
  | double d =>
    apply Reader.reads_single
    rfl
  | int h => apply Reader.reads_rounded Double.nearest h

/-- The coordinates of a position that have been read. -/
def Position.draft (p : Position) (names : List String) : PositionDraft :=
  ⟨if "x" ∈ names then some p.x else none, if "y" ∈ names then some p.y else none⟩

/-- A position is made from its coordinates. -/
theorem Position.fills {p : Position} {x y : Number} (hx : x.Rounds p.x) (hy : y.Rounds p.y) :
  positionRecord.Fills [("x", [.number x]), ("y", [.number y])] p.draft p
  := by
  constructor
  case names => rfl
  case nodup => simp
  case blank => rfl
  case adds =>
    intro field hfield ts hts
    simp only [positionRecord, List.mem_cons, List.not_mem_nil, or_false] at hfield
    obtain rfl | rfl := hfield
    · obtain rfl : ts = [.number x] := by simpa using hts
      apply Field.adds_of_reads p.x (fun _ => rfl) (fun _ => by simp [draft]) hx.reads
    · obtain rfl : ts = [.number y] := by simpa using hts
      apply Field.adds_of_reads p.y (fun _ => rfl) (fun _ => by simp [draft]) hy.reads
  case finish =>
    intro names hnames
    simp_all [draft, positionRecord]

/-- Every form of a position is a value. -/
theorem Position.WrittenAs.isValue {p : Position} {ts : List Token} (h : p.WrittenAs ts) :
  IsValue ts
  := by
  obtain ⟨_, _, hmembers⟩ := h
  apply hmembers.isValue
  intro m hm
  simp only [List.mem_cons, List.not_mem_nil, or_false] at hm
  obtain rfl | rfl := hm <;> apply IsValue.scalar rfl

/-- A position is read in every form. -/
theorem Position.WrittenAs.reads {p : Position} {ts : List Token} {room : Nat}
    (h : p.WrittenAs ts) (hroom : p.toJson.depth ≤ room) :
  (Position.reader room).Reads ts p
  := by
  obtain ⟨k, rfl, -⟩ := Json.depth_obj_le_iff.1 hroom
  obtain ⟨hx, hy, hmembers⟩ := h
  apply (Position.fills hx hy).reads_recordOf hmembers

/-! ### Edges -/

/-- The fields of an edge that have been read. -/
def Edge.draft (e : Edge) (names : List String) : EdgeDraft :=
  ⟨if "id" ∈ names then some e.id else none, if "source" ∈ names then some e.source else none,
    if "target" ∈ names then some e.target else none⟩

/-- An edge is made from its fields. -/
theorem Edge.fills (e : Edge) :
  edgeRecord.Fills [("id", [.text e.id]), ("source", [.text e.source]),
    ("target", [.text e.target])] e.draft e
  := by
  constructor
  case names => rfl
  case nodup => simp
  case blank => rfl
  case adds =>
    intro field hfield ts hts
    simp only [edgeRecord, List.mem_cons, List.not_mem_nil, or_false] at hfield
    obtain rfl | rfl | rfl := hfield
    · obtain rfl : ts = [.text e.id] := by simpa using hts
      apply Field.adds_of_reads e.id (fun _ => rfl) (fun _ => by simp [draft]) (Reader.reads_text e.id)
    · obtain rfl : ts = [.text e.source] := by simpa using hts
      apply Field.adds_of_reads e.source (fun _ => rfl) (fun _ => by simp [draft]) (Reader.reads_text e.source)
    · obtain rfl : ts = [.text e.target] := by simpa using hts
      apply Field.adds_of_reads e.target (fun _ => rfl) (fun _ => by simp [draft]) (Reader.reads_text e.target)
  case finish =>
    intro names hnames
    simp_all [draft, edgeRecord]

/-- Every form of an edge is a value. -/
theorem Edge.WrittenAs.isValue {e : Edge} {ts : List Token} (h : e.WrittenAs ts) :
  IsValue ts
  := by
  obtain ⟨hmembers⟩ := h
  apply hmembers.isValue
  intro m hm
  simp only [List.mem_cons, List.not_mem_nil, or_false] at hm
  obtain rfl | rfl | rfl := hm <;> apply IsValue.scalar rfl

/-- An edge is read in every form. -/
theorem Edge.WrittenAs.reads {e : Edge} {ts : List Token} {room : Nat} (h : e.WrittenAs ts)
    (hroom : e.toJson.depth ≤ room) :
  (Edge.reader room).Reads ts e
  := by
  obtain ⟨k, rfl, -⟩ := Json.depth_obj_le_iff.1 hroom
  obtain ⟨hmembers⟩ := h
  apply (Edge.fills e).reads_recordOf hmembers

/-! ### Nodes -/

/-- The fields of a node that have been read. -/
def Node.draft (n : Node) (names : List String) : NodeDraft :=
  ⟨if "id" ∈ names then some n.id else none, if "type" ∈ names then some n.kind else none,
    if "position" ∈ names then some n.position else none,
    if "data" ∈ names then some n.data else none⟩

/-- A node is made from its fields if its position and its data are read. -/
theorem Node.fills {n : Node} {room : Nat} {position data : List Token} {ms : Named Json}
    (hposition : (Position.reader room).Reads position n.position)
    (hdata : (Reader.object room).Reads data ms) (hms : NodeData.ofMembers ms = n.data) :
  (nodeRecord room).Fills [("id", [.text n.id]), ("type", [.text n.kind]),
    ("position", position), ("data", data)] n.draft n
  := by
  constructor
  case names => rfl
  case nodup => simp
  case blank => rfl
  case adds =>
    intro field hfield ts hts
    simp only [nodeRecord, List.mem_cons, List.not_mem_nil, or_false] at hfield
    obtain rfl | rfl | rfl | rfl := hfield
    · obtain rfl : ts = [.text n.id] := by simpa using hts
      apply Field.adds_of_reads n.id (fun _ => rfl) (fun _ => by simp [draft]) (Reader.reads_text n.id)
    · obtain rfl : ts = [.text n.kind] := by simpa using hts
      apply Field.adds_of_reads n.kind (fun _ => rfl) (fun _ => by simp [draft]) (Reader.reads_text n.kind)
    · obtain rfl : ts = position := by simpa using hts
      apply Field.adds_of_reads n.position (fun _ => rfl) (fun _ => by simp [draft]) hposition
    · obtain rfl : ts = data := by simpa using hts
      apply Field.adds_of_reads n.data (fun _ => rfl) (fun _ => by simp [draft, hms]) hdata
  case finish =>
    intro names hnames
    simp_all [draft, nodeRecord]

/-- Every form of a node is a value. -/
theorem Node.WrittenAs.isValue {n : Node} {ts : List Token} (h : n.WrittenAs ts) :
  IsValue ts
  := by
  obtain ⟨hposition, hdata, hmembers⟩ := h
  apply hmembers.isValue
  intro m hm
  simp only [List.mem_cons, List.not_mem_nil, or_false] at hm
  obtain rfl | rfl | rfl | rfl := hm
  · apply IsValue.scalar rfl
  · apply IsValue.scalar rfl
  · apply hposition.isValue
  · apply hdata.isValue

/-- A node is read in every form if there is room for its data. -/
theorem Node.WrittenAs.reads {n : Node} {ts : List Token} {room : Nat} (h : n.WrittenAs ts)
    (hproper : n.data.Proper) (hroom : n.toJson.depth ≤ room) :
  (Node.reader room).Reads ts n
  := by
  obtain ⟨k, rfl, hdepth⟩ := Json.depth_obj_le_iff.1 hroom
  obtain ⟨hposition, hdata, hmembers⟩ := h
  have hreadPosition := hposition.reads (hdepth ("position", n.position.toJson) (by simp))
  have hseparate := hproper.separate
  have hreadData := Reader.reads_object hproper.canonical_toMembers hseparate.nodup_toMembers
    (hdepth ("data", n.data.toJson) (by simp)) hdata
  apply (Node.fills hreadPosition hreadData hseparate.ofMembers_toMembers).reads_recordOf hmembers

/-! ### Documents -/

/-- The fields of a document that have been read. -/
def Document.draft (d : Document) (names : List String) : DocumentDraft :=
  ⟨if "nodes" ∈ names then some d.nodes else none, if "edges" ∈ names then some d.edges else none⟩

/-- A document is made from its fields if its nodes and its edges are read. -/
theorem Document.fills {d : Document} {room : Nat} {nodes edges : List Token}
    (hnodes : (Reader.array room Node.reader).Reads nodes d.nodes)
    (hedges : (Reader.array room Edge.reader).Reads edges d.edges) :
  (documentRecord room).Fills [("nodes", nodes), ("edges", edges)] d.draft d
  := by
  constructor
  case names => rfl
  case nodup => simp
  case blank => rfl
  case adds =>
    intro field hfield ts hts
    simp only [documentRecord, List.mem_cons, List.not_mem_nil, or_false] at hfield
    obtain rfl | rfl := hfield
    · obtain rfl : ts = nodes := by simpa using hts
      apply Field.adds_of_reads d.nodes (fun _ => rfl) (fun _ => by simp [draft]) hnodes
    · obtain rfl : ts = edges := by simpa using hts
      apply Field.adds_of_reads d.edges (fun _ => rfl) (fun _ => by simp [draft]) hedges
  case finish =>
    intro names hnames
    simp_all [draft, documentRecord]

/-- Every form of a document is a value. -/
theorem Document.WrittenAs.isValue {d : Document} {ts : List Token} (h : d.WrittenAs ts) :
  IsValue ts
  := by
  obtain ⟨hnodes, hedges, hmembers⟩ := h
  apply hmembers.isValue
  intro m hm
  simp only [List.mem_cons, List.not_mem_nil, or_false] at hm
  obtain rfl | rfl := hm
  · apply IsValue.array
    apply Reader.forall_of_forall₂ hnodes fun n ts h => h.isValue
  · apply IsValue.array
    apply Reader.forall_of_forall₂ hedges fun e ts h => h.isValue

/-- A document is read in every form if there is room for the data of its nodes. -/
theorem Document.WrittenAs.reads {d : Document} {ts : List Token} {room : Nat}
    (h : d.WrittenAs ts) (hproper : ∀ n ∈ d.nodes, n.data.Proper)
    (hroom : d.toJson.depth ≤ room) :
  (Document.reader room).Reads ts d
  := by
  obtain ⟨k, rfl, hdepth⟩ := Json.depth_obj_le_iff.1 hroom
  have hdepthNodes := hdepth ("nodes", .arr (d.nodes.map Node.toJson)) (by simp)
  have hdepthEdges := hdepth ("edges", .arr (d.edges.map Edge.toJson)) (by simp)
  obtain ⟨k, rfl, hnode⟩ := Json.depth_arr_le_iff.1 hdepthNodes
  obtain ⟨l, hl, hedge⟩ := Json.depth_arr_le_iff.1 hdepthEdges
  obtain rfl : k = l := by omega
  obtain ⟨hnodes, hedges, hmembers⟩ := h
  have hreadNodes := Reader.reads_array hnodes (fun n ts h => h.isValue) fun n hn ts h =>
    h.reads (hproper n hn) (hnode _ (List.mem_map_of_mem hn))
  have hreadEdges := Reader.reads_array hedges (fun e ts h => h.isValue) fun e he ts h =>
    h.reads (hedge _ (List.mem_map_of_mem he))
  apply (Document.fills hreadNodes hreadEdges).reads_recordOf hmembers

end TextPipeline
