import Mathlib
import TextPipeline.Pipeline.Document
import TextPipeline.Proofs.Json.Outcomes
import TextPipeline.Proofs.Pipeline.DocumentForms

/-!
# The text of a document

A document is writable if the data of its nodes can be made and if no more arrays and objects are
open at one place of its text than may be when it is read.  A writable document is read from every
text that spells one of its forms.  Its own text is one of them if the numbers of the binary64
format in it are read back as they are written.  Every document that is read from a text is
writable.  Nothing is asked of the nodes and edges as a graph.
-/

namespace TextPipeline

open Token (IsValue arrayOf recordOf)

/-- The data of the nodes can be made, and the text is not nested too deeply. -/
structure Document.Writable (d : Document) : Prop where
  made : ∀ n ∈ d.nodes, n.data.Made Named.Canonical
  depth : d.toJson.depth ≤ Json.maxDepth

/-! ### Whole numbers -/

/-- All numbers of a position are of the binary64 format. -/
theorem Position.fits_toJson (p : Position) :
  p.toJson.Fits
  := by
  apply Json.Fits.obj
  intro m hm
  simp only [List.mem_cons, List.not_mem_nil, or_false] at hm
  obtain rfl | rfl := hm <;> apply Json.Fits.double

/-- The whole numbers in the data of a node fit 64 bits. -/
theorem NodeData.Proper.fits_toJson {data : NodeData} (h : data.Proper) :
  data.toJson.Fits
  := by
  apply Json.Fits.obj
  intro m hm
  apply (h.canonical_toMembers m hm).fits

/-- The whole numbers in a node fit 64 bits. -/
theorem Node.fits_toJson {n : Node} (h : n.data.Proper) :
  n.toJson.Fits
  := by
  apply Json.Fits.obj
  intro m hm
  simp only [List.mem_cons, List.not_mem_nil, or_false] at hm
  obtain rfl | rfl | rfl | rfl := hm
  · apply Json.Fits.str
  · apply Json.Fits.str
  · apply Position.fits_toJson
  · apply h.fits_toJson

/-- There are no numbers in an edge. -/
theorem Edge.fits_toJson (e : Edge) :
  e.toJson.Fits
  := by
  apply Json.Fits.obj
  intro m hm
  simp only [List.mem_cons, List.not_mem_nil, or_false] at hm
  obtain rfl | rfl | rfl := hm <;> apply Json.Fits.str

/-- The whole numbers in a document fit 64 bits. -/
theorem Document.fits_toJson {d : Document} (h : ∀ n ∈ d.nodes, n.data.Proper) :
  d.toJson.Fits
  := by
  apply Json.Fits.obj
  intro m hm
  simp only [List.mem_cons, List.not_mem_nil, or_false] at hm
  obtain rfl | rfl := hm
  · apply Json.Fits.arr
    intro v hv
    obtain ⟨n, hn, rfl⟩ := List.mem_map.1 hv
    apply Node.fits_toJson (h n hn)
  · apply Json.Fits.arr
    intro v hv
    obtain ⟨e, -, rfl⟩ := List.mem_map.1 hv
    apply Edge.fits_toJson

/-! ### Depth -/

/-- A node is as deep as its data and one more. -/
theorem Node.depth_toJson_le {n : Node} {room : Nat} (hroom : 1 ≤ room)
    (hdata : n.data.toJson.depth ≤ room) :
  n.toJson.depth ≤ room + 1
  := by
  apply Json.depth_obj_le_iff.2
  use room, rfl
  intro m hm
  simp only [List.mem_cons, List.not_mem_nil, or_false] at hm
  obtain rfl | rfl | rfl | rfl := hm
  · apply Nat.zero_le
  · apply Nat.zero_le
  · apply hroom
  · apply hdata

/-- A document is as deep as its nodes and two more. -/
theorem Document.depth_toJson_le {d : Document} {room : Nat} (hroom : 1 ≤ room)
    (hnodes : ∀ n ∈ d.nodes, n.toJson.depth ≤ room) :
  d.toJson.depth ≤ room + 2
  := by
  apply Json.depth_obj_le_iff.2
  use room + 1, rfl
  intro m hm
  simp only [List.mem_cons, List.not_mem_nil, or_false] at hm
  obtain rfl | rfl := hm
  · apply Json.depth_arr_le_iff.2
    use room, rfl
    intro v hv
    obtain ⟨n, hn, rfl⟩ := List.mem_map.1 hv
    apply hnodes n hn
  · apply Json.depth_arr_le_iff.2
    use room, rfl
    intro v hv
    obtain ⟨e, -, rfl⟩ := List.mem_map.1 hv
    apply hroom

/-! ### Reading back -/

/-- The tokens of a position are one of its forms. -/
theorem Position.writtenAs_tokens (p : Position) :
  p.WrittenAs p.toJson.tokens
  := by
  rw [toJson, Json.tokens_obj]
  apply Position.WrittenAs.mk (.double p.x) (.double p.y) (.of_perm (.refl _))

/-- The tokens of an edge are one of its forms. -/
theorem Edge.writtenAs_tokens (e : Edge) :
  e.WrittenAs e.toJson.tokens
  := by
  rw [toJson, Json.tokens_obj]
  apply Edge.WrittenAs.mk (.of_perm (.refl _))

/-- The tokens of a node are one of its forms. -/
theorem Node.writtenAs_tokens {n : Node} (h : n.data.Proper) :
  n.WrittenAs n.toJson.tokens
  := by
  rw [toJson, Json.tokens_obj]
  apply Node.WrittenAs.mk n.position.writtenAs_tokens h.fits_toJson.writtenAs_tokens
    (.of_perm (.refl _))

/-- The tokens of a document are one of its forms. -/
theorem Document.writtenAs_tokens {d : Document} (h : ∀ n ∈ d.nodes, n.data.Proper) :
  d.WrittenAs d.toJson.tokens
  := by
  have hnodes : List.Forall₂ Node.WrittenAs d.nodes (d.nodes.map fun n => n.toJson.tokens) := by
    rw [List.forall₂_map_right_iff, List.forall₂_same]
    intro n hn
    apply Node.writtenAs_tokens (h n hn)
  have hedges : List.Forall₂ Edge.WrittenAs d.edges (d.edges.map fun e => e.toJson.tokens) := by
    rw [List.forall₂_map_right_iff, List.forall₂_same]
    intro e _
    apply Edge.writtenAs_tokens
  rw [toJson, Json.tokens_obj]
  simp only [List.map_cons, List.map_nil, Json.tokens_arr, List.map_map]
  apply Document.WrittenAs.mk hnodes hedges (.of_perm (.refl _))

/-- A writable document is read from every text that spells one of its forms. -/
theorem Document.Writable.parse_form {d : Document} (h : d.Writable) {ts : List Token}
    (hform : d.WrittenAs ts) {text : String} (htext : Token.SpellsAll ts text.toList) :
  Document.parse text = .ok d
  := by
  rw [Document.parse, htext.scan_eq hform.isValue.apart]
  apply (hform.reads (fun n hn => (h.made n hn).proper) h.depth).whole

/-- The text of a writable document is read as the document if the numbers in it are read back. -/
theorem Document.Writable.parse_text {d : Document} (h : d.Writable)
    (hread : ∀ x ∈ d.toJson.doubles, x.ReadsBack) :
  Document.parse d.text = .ok d
  := by
  have hproper : ∀ n ∈ d.nodes, n.data.Proper := fun n hn => (h.made n hn).proper
  apply h.parse_form (Document.writtenAs_tokens hproper)
  apply (Document.fits_toJson hproper).spellsAll_text hread

/-! ### What is read -/

/-- A position is read with any coordinates. -/
theorem Position.ensures_reader (room : Nat) :
  (Position.reader room).Ensures fun _ => True
  := by
  apply Record.ensures_reader
  intro k hk
  use fun _ => True
  apply Record.keeps_true
  intro field hfield draft
  simp only [positionRecord, List.mem_cons, List.not_mem_nil, or_false] at hfield
  obtain rfl | rfl := hfield <;> apply Reader.ensures_number.map fun v hv => trivial

/-- An edge is read with any texts. -/
theorem Edge.ensures_reader (room : Nat) :
  (Edge.reader room).Ensures fun _ => True
  := by
  apply Record.ensures_reader
  intro k hk
  use fun _ => True
  apply Record.keeps_true
  intro field hfield draft
  simp only [edgeRecord, List.mem_cons, List.not_mem_nil, or_false] at hfield
  obtain rfl | rfl | rfl := hfield <;> apply Reader.ensures_text.map fun v hv => trivial

/-- The data of a node that was read can be made, and there was room for the node. -/
theorem Node.ensures_reader {room : Nat} (hroom : 2 ≤ room) :
  (Node.reader room).Ensures fun n => n.data.Made Named.Canonical ∧ n.toJson.depth ≤ room
  := by
  apply Record.ensures_reader
  rintro k rfl
  use fun draft => ∀ data ∈ draft.data, data.Made Named.Canonical ∧ data.toJson.depth ≤ k
  constructor
  · simp [nodeRecord]
  · intro field hfield draft hdraft
    simp only [nodeRecord, List.mem_cons, List.not_mem_nil, or_false] at hfield
    obtain rfl | rfl | rfl | rfl := hfield
    · apply Reader.ensures_text.map fun v hv => hdraft
    · apply Reader.ensures_text.map fun v hv => hdraft
    · apply (Position.ensures_reader k).map fun v hv => hdraft
    · apply (Reader.ensures_object k).map
      intro ms hms data hdata
      cases hdata
      apply And.intro (NodeData.Made.ofMembers hms.1) (NodeData.depth_toJson_ofMembers hms.2)
  · rintro ⟨id, kind, position, data⟩ n hdraft hfinish
    have hdata : (data.getD .empty).Made Named.Canonical ∧ (data.getD .empty).toJson.depth ≤ k := by
      cases data with
      | none =>
        apply And.intro NodeData.Made.empty
        apply Nat.le_of_lt_succ hroom
      | some data => apply hdraft data rfl
    simp only [nodeRecord] at hfinish
    split at hfinish
    · cases hfinish
      use hdata.1
      apply Node.depth_toJson_le (Nat.le_of_lt_succ hroom) hdata.2
    · cases hfinish
    · cases hfinish

/-- A document that was read is writable. -/
theorem Document.ensures_reader :
  (Document.reader Json.maxDepth).Ensures Document.Writable
  := by
  apply Record.ensures_reader
  intro k hk
  obtain rfl : k = 126 := (Nat.succ.inj hk).symm
  use fun draft => ∀ ns ∈ draft.nodes, ∀ n ∈ ns, n.data.Made Named.Canonical ∧ n.toJson.depth ≤ 125
  constructor
  · simp [documentRecord]
  · intro field hfield draft hdraft
    simp only [documentRecord, List.mem_cons, List.not_mem_nil, or_false] at hfield
    obtain rfl | rfl := hfield
    · have hnodes : (Reader.array 126 Node.reader).Ensures fun ns =>
          ∀ n ∈ ns, n.data.Made Named.Canonical ∧ n.toJson.depth ≤ 125 := by
        apply Reader.ensures_array
        intro l hl
        obtain rfl : l = 125 := (Nat.succ.inj hl).symm
        apply Node.ensures_reader (by decide)
      apply hnodes.map
      intro ns hns ms hms
      cases hms
      apply hns
    · have hedges : (Reader.array 126 Edge.reader).Ensures fun es => ∀ e ∈ es, True := by
        apply Reader.ensures_array
        intro l hl
        apply Edge.ensures_reader
      apply hedges.map fun es hes => hdraft
  · rintro ⟨nodes, edges⟩ d hdraft hfinish
    cases hfinish
    have hnodes : ∀ n ∈ nodes.getD [], n.data.Made Named.Canonical ∧ n.toJson.depth ≤ 125 := by
      cases nodes with
      | none => simp
      | some ns => apply hdraft ns rfl
    constructor
    · intro n hn
      apply (hnodes n hn).1
    · apply Document.depth_toJson_le (by decide)
      intro n hn
      apply (hnodes n hn).2

/-- A document that was read from a text is writable. -/
theorem Document.writable_of_parse {text : String} {d : Document}
    (h : Document.parse text = .ok d) :
  d.Writable
  := Document.ensures_reader.whole h

/-- Every document that was read is writable.  If the numbers of the binary64 format in a document
are read back as they are written, then the text of the document is read as the document exactly if
the document is writable, and so to read it and to write it again changes nothing once it was read
from any text. -/
theorem Document.parse_text_iff (d : Document) :
  (∀ text, Document.parse text = .ok d → d.Writable) ∧
    ((∀ x ∈ d.toJson.doubles, x.ReadsBack) →
      (Document.parse d.text = .ok d ↔ d.Writable) ∧
        ∀ text, Document.parse text = .ok d →
          Document.parse d.text = .ok d ∧
            (Document.parse d.text).map Document.text = .ok d.text)
  := by
  use fun text => Document.writable_of_parse
  intro hread
  constructor
  · constructor
    · apply Document.writable_of_parse
    · intro hwritable
      apply hwritable.parse_text hread
  · intro text htext
    have hparse := (Document.writable_of_parse htext).parse_text hread
    use hparse
    rw [hparse]
    rfl

/-- A document with a control character in an id, a zero with a sign, a text outside the basic
plane, and a label that is no text. -/
def Document.unusual : Document :=
  ⟨[⟨"a\x00", "\"\\", ⟨.zero false, .zero true⟩,
      ⟨none, some "😀", none, [("label", .int 5), ("z", .arr [.null, .obj []])]⟩⟩],
    [⟨"e", "a\x00", "b"⟩]⟩

/-- A text of the unusual document, with arrays for its records. -/
def Document.unusualText : String :=
  "[[[\"a\\u0000\", \"\\\"\\\\\", [0.0, -0.0], \x7b\"z\": [null, \x7b\x7d], \"label\": 5,
    \"text\": \"\\ud83d\\ude00\"\x7d]], [[\"e\", \"a\\u0000\", \"b\"]]]"

/-- The unusual document is read back from its own text, since it can be read from another one and
the zeros in it are read back. -/
theorem Document.parse_text_unusual :
  Document.parse Document.unusualText = .ok Document.unusual ∧ Document.unusual.Writable ∧
    (∀ x ∈ Document.unusual.toJson.doubles, x.ReadsBack) ∧
    Document.parse Document.unusual.text = .ok Document.unusual
  := by
  have hparse : Document.parse Document.unusualText = .ok Document.unusual := by
    decide +kernel
  have hdoubles : Document.unusual.toJson.doubles = [.zero false, .zero true] := rfl
  have hread : ∀ x ∈ Document.unusual.toJson.doubles, x.ReadsBack := by
    rw [hdoubles]
    simp [Double.readsBack_zero]
  obtain ⟨hwritable, hback⟩ := Document.parse_text_iff Document.unusual
  exact ⟨hparse, hwritable _ hparse, hread, ((hback hread).2 _ hparse).1⟩

/-! ### Texts with other fields -/

/-- A writable document is read from every text that spells one of its forms, with the fields in
any order and any values under other names among them, and it is written as if these were not
there: the tokens of its text are those of the document alone, if the numbers of the binary64 format
in it are read back as they are written. -/
theorem Document.parse_writtenAs {d : Document} (h : d.Writable) {ts : List Token}
    (hform : d.WrittenAs ts) {text : String} (htext : Token.SpellsAll ts text.toList) :
  Document.parse text = .ok d ∧ (Document.parse text).map Document.text = .ok d.text ∧
    ((∀ x ∈ d.toJson.doubles, x.ReadsBack) → Token.scan d.text.toList = d.toJson.tokens)
  := by
  have hparse := h.parse_form hform htext
  use hparse
  constructor
  · rw [hparse]
    rfl
  · intro hread
    have hfits := Document.fits_toJson fun n hn => (h.made n hn).proper
    apply hfits.scan_text hread .indented

/-- The coordinate four. -/
def Double.four : Double := ⟨false, 0x10000000000000, 1024, by decide⟩

/-- A document with one node and one edge. -/
def Document.sketch : Document :=
  ⟨[⟨"a", "x", ⟨.four, .zero true⟩, ⟨none, none, none, [("color", .str "red")]⟩⟩],
    [⟨"e", "a", "b"⟩]⟩

/-- The sketch as it is kept by an editor: the fields are in the order opposite to the usual one,
and every object has further members, one of them twice and one with a value that could not be
read. -/
def Document.decoratedText : String :=
  "\x7b\"version\": 2, \"edges\": [ \x7b\"type\": \"bezier\", \"target\": \"b\", \"source\": \"a\",
      \"type\": null, \"id\": \"e\"\x7d ],
    \"nodes\": [\x7b\"selected\": [\"\\ud800\", 1e999], \"data\": \x7b\"color\": \"red\"\x7d,
      \"position\": \x7b\"z\": \x7b\x7d, \"y\": -0.0, \"x\": 4\x7d, \"type\": \"x\",
      \"id\": \"\\u0061\"\x7d]\x7d\n"

/-- The tokens of the decorated text. -/
def Document.decorated : List Token :=
  recordOf [("version", [.number (.int 2)]),
    ("edges", arrayOf [recordOf [("type", [.text "bezier"]), ("target", [.text "b"]),
      ("source", [.text "a"]), ("type", [.null]), ("id", [.text "e"])]]),
    ("nodes", arrayOf [recordOf [("selected", arrayOf [[.unpaired], [.outOfRange]]),
      ("data", recordOf [("color", [.text "red"])]),
      ("position", recordOf [("z", recordOf []), ("y", [.number (.double (.zero true))]),
        ("x", [.number (.int 4)])]),
      ("type", [.text "x"]), ("id", [.text "a"])]])]

/-- The tokens of the decorated text are a form of the sketch. -/
theorem Document.writtenAs_decorated :
  Document.sketch.WrittenAs Document.decorated
  := by
  have hx : (Number.int 4).Rounds .four := by
    apply Number.Rounds.int
    decide +kernel
  have hz : IsValue (recordOf []) := by
    apply Token.isValue_recordOf
    simp
  have hposition : Position.WrittenAs ⟨.four, .zero true⟩ _ :=
    .mk hx (.double (.zero true))
      (.insert (m := ("z", _)) [] _ (.of_perm (List.reverse_perm _)) (by simp) hz)
  have hmember : ∀ p ∈ [("color", Json.str "red", [Token.text "red"])], p.2.1.WrittenAs p.2.2 := by
    intro p hp
    rw [List.mem_singleton.1 hp]
    apply Json.WrittenAs.str
  have hselected : IsValue (arrayOf [[.unpaired], [.outOfRange]]) := by
    apply IsValue.array
    simp only [List.mem_cons, List.not_mem_nil, or_false, forall_eq_or_imp, forall_eq]
    exact ⟨.scalar rfl, .scalar rfl⟩
  have hnode : Node.WrittenAs ⟨"a", "x", ⟨.four, .zero true⟩,
      ⟨none, none, none, [("color", .str "red")]⟩⟩ _ :=
    .mk hposition (.obj (.refl _) hmember)
      (.insert (m := ("selected", _)) [] _ (.of_perm (List.reverse_perm _)) (by simp) hselected)
  have hfields := FieldsAmong.of_perm (List.reverse_perm [("id", [Token.text "e"]),
    ("source", [.text "a"]), ("target", [.text "b"])])
  have hinner := FieldsAmong.insert (m := ("type", [.null]))
    [("target", [.text "b"]), ("source", [.text "a"])] [("id", [.text "e"])] hfields (by simp)
    (.scalar rfl)
  have hedge : Edge.WrittenAs ⟨"e", "a", "b"⟩ _ :=
    .mk (.insert (m := ("type", [.text "bezier"])) [] _ hinner (by simp) (.scalar rfl))
  apply Document.WrittenAs.mk (.cons hnode .nil) (.cons hedge .nil)
  apply FieldsAmong.insert [] _ (.of_perm (.swap _ _ _)) (by simp) (.scalar rfl)

/-- The sketch can be made. -/
theorem Document.writable_sketch :
  Document.sketch.Writable
  := by
  constructor
  · intro n hn
    rw [List.mem_singleton.1 hn]
    have hmember : ∀ m ∈ [("color", Json.str "red")], m.2.Canonical := by
      intro m hm
      rw [List.mem_singleton.1 hm]
      apply Json.Canonical.str
    have hcanonical : Named.Canonical [("color", .str "red")] :=
      .obj (List.pairwise_singleton _ _) hmember
    apply NodeData.Made.ofMembers hcanonical
  · decide

/-- The sketch is read from its decorated text, and its own text has its tokens and no others. -/
theorem Document.parse_decoratedText :
  Document.sketch.Writable ∧ Document.sketch.WrittenAs Document.decorated ∧
    Token.SpellsAll Document.decorated Document.decoratedText.toList ∧
    (∀ x ∈ Document.sketch.toJson.doubles, x.ReadsBack) ∧
    Document.parse Document.decoratedText = .ok Document.sketch ∧
    Token.scan Document.sketch.text.toList = Document.sketch.toJson.tokens
  := by
  have hscan : Token.scan Document.decoratedText.toList = Document.decorated := by
    decide +kernel
  have htext : Token.SpellsAll Document.decorated Document.decoratedText.toList := by
    rw [← hscan]
    apply Token.spellsAll_scan
    rw [hscan]
    decide
  have hfour : Double.four.ReadsBack := by
    apply Double.readsBack_of_short <;> decide +kernel
  have hread : ∀ x ∈ Document.sketch.toJson.doubles, x.ReadsBack := by
    have hdoubles : Document.sketch.toJson.doubles = [.four, .zero true] := rfl
    rw [hdoubles]
    simp [hfour, Double.readsBack_zero]
  obtain ⟨hparse, -, htokens⟩ :=
    Document.parse_writtenAs Document.writable_sketch Document.writtenAs_decorated htext
  exact ⟨Document.writable_sketch, Document.writtenAs_decorated, htext, hread, hparse,
    htokens hread⟩

end TextPipeline
