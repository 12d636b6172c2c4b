import Mathlib
import TextPipeline.Proofs.Pipeline.Loading
import TextPipeline.Session

/-!
# Runs of an editor

An editor begins with a graph without nodes, with a graph for the input, or with any graph that
has been loaded.  What can occur at a command is told once, for all that is proved about runs: the
session is left as it was, or an edit is carried out.  Whatever commands follow, the graph stays
valid, provided that the ids drawn for new nodes are not taken.  So the graph can be written down as
a document at any point, and the document gives back the graph itself.
-/

namespace TextPipeline

/-- A graph that an editor may begin with. -/
inductive Graph.Initial : Graph → Prop where
  | empty : Initial .empty
  | withInput : Initial .withInput
  | ofDocument {d : Document} {g : Graph} (h : Graph.ofDocument d = .ok g) : Initial g
  | parse {text : String} {g : Graph} (h : Graph.parse text = .ok g) : Initial g

namespace Session

variable {supply : Nat → String} {s : Session}

/-- Whenever an id is drawn in a run, no node of the graph has it. -/
def DrawsFresh (supply : Nat → String) (s : Session) : List Command → Prop
  | [] => True
  | c :: cs =>
    (∀ kind position, c = .addOperation kind position →
      s.graph.contains (supply s.drawn) = false) ∧
      DrawsFresh supply (s.perform supply c).2 cs

end Session

/-- A graph that a run of an editor leads to. -/
def Graph.Reachable (g : Graph) : Prop :=
  ∃ supply s cs, s.graph.Initial ∧ Session.DrawsFresh supply s cs ∧
    (s.run supply cs).2.graph = g

/-! ### What occurs at a command -/

namespace Session

/-- What may occur at a command: it is answered and nothing is changed, or one of the edits is
carried out. -/
inductive Occurs (supply : Nat → String) (s : Session) : Command → Answer × Session → Prop where
  | unchanged {c : Command} {answer : Answer} : Occurs supply s c (answer, s)
  | cleared : Occurs supply s .clear (.done, { s with graph := .empty })
  | begun : Occurs supply s .beginWithInput (.done, { s with graph := .withInput })
  | loaded {text : String} {g : Graph} (h : Graph.parse text = .ok g) :
      Occurs supply s (.load text) (.graph g, { s with graph := g })
  | nodeAdded {n : Node} {g : Graph} (h : s.graph.addNode n = .ok g) :
      Occurs supply s (.addNode n) (.done, { s with graph := g })
  | operationAdded (kind : OperationKind) (position : Position) :
      Occurs supply s (.addOperation kind position) (.id (supply s.drawn),
        ⟨s.graph.addOperation (supply s.drawn) kind position, s.drawn + 1⟩)
  | nodeRemoved {id : String} {n : Node} {g : Graph} (h : s.graph.removeNode id = some (n, g)) :
      Occurs supply s (.removeNode id) (.node (some n), { s with graph := g })
  | edgeRemoved {id : String} {e : Edge} {g : Graph} (h : s.graph.removeEdge id = some (e, g)) :
      Occurs supply s (.removeEdge id) (.edge (some e), { s with graph := g })
  | updated {id field value : String} {g : Graph} (h : s.graph.updateNode id field value = .ok g) :
      Occurs supply s (.update id field value) (.node (g.node? id), { s with graph := g })
  | connected {source target id : String} {g : Graph}
      (h : s.graph.connect source target = .ok (id, g)) :
      Occurs supply s (.connect source target) (.id id, { s with graph := g })

/-- Nothing else occurs at a command. -/
theorem occurs_perform (supply : Nat → String) (s : Session) (c : Command) :
  Occurs supply s c (s.perform supply c)
  := by
  cases c with
  | clear => apply Occurs.cleared
  | beginWithInput => apply Occurs.begun
  | load text =>
    rw [perform]
    split
    · next hparse => apply Occurs.loaded hparse
    · apply Occurs.unchanged
  | addNode n =>
    rw [perform]
    cases hadd : s.graph.addNode n with
    | ok g => apply Occurs.nodeAdded hadd
    | error cause => apply Occurs.unchanged
  | addOperation kind position => apply Occurs.operationAdded
  | removeNode id =>
    rw [perform]
    split
    · next hremove => apply Occurs.nodeRemoved hremove
    · apply Occurs.unchanged
  | removeEdge id =>
    rw [perform]
    split
    · next hremove => apply Occurs.edgeRemoved hremove
    · apply Occurs.unchanged
  | update id field value =>
    rw [perform]
    split
    · next hupdate => apply Occurs.updated hupdate
    · apply Occurs.unchanged
  | connect source target =>
    rw [perform]
    split
    · next hconnect => apply Occurs.connected hconnect
    · apply Occurs.unchanged
  | rebuild =>
    rw [perform]
    split <;> apply Occurs.unchanged
  | _ => apply Occurs.unchanged

end Session

/-! ### Validity along runs -/

/-- A graph that is loaded from a text is valid. -/
theorem Graph.valid_of_parse {text : String} {g : Graph} (h : Graph.parse text = .ok g) :
  g.Valid
  := by
  rw [Graph.parse] at h
  split at h
  · simp at h
  · next d _ =>
    cases hd : Graph.ofDocument d with
    | error cause =>
      rw [hd] at h
      simp [Except.mapError] at h
    | ok g' =>
      rw [hd] at h
      obtain rfl := Except.ok.inj h
      obtain ⟨hvalid, rfl⟩ := Graph.ofDocument_eq_ok_iff.mp hd
      apply hvalid

/-- A graph that an editor may begin with is valid. -/
theorem Graph.Initial.valid {g : Graph} (h : g.Initial) :
  g.Valid
  := by
  cases h with
  | empty => apply valid_empty
  | withInput => apply valid_withInput
  | ofDocument h =>
    obtain ⟨hvalid, rfl⟩ := Graph.ofDocument_eq_ok_iff.mp h
    apply hvalid
  | parse h => apply valid_of_parse h

namespace Session

variable {supply : Nat → String} {s : Session}

/-- A command keeps the graph valid, if the id it may draw is fresh. -/
theorem valid_perform (h : s.graph.Valid) (c : Command)
    (hfresh : ∀ kind position, c = .addOperation kind position →
      s.graph.contains (supply s.drawn) = false) :
  (s.perform supply c).2.graph.Valid
  := by
  have hoccurs := occurs_perform supply s c
  generalize s.perform supply c = outcome at hoccurs ⊢
  cases hoccurs with
  | unchanged => apply h
  | cleared => apply Graph.valid_empty
  | begun => apply Graph.valid_withInput
  | loaded hparse => apply Graph.valid_of_parse hparse
  | nodeAdded hadd => apply h.addNode hadd
  | operationAdded kind position => apply h.addOperation (hfresh kind position rfl)
  | nodeRemoved hremove => apply h.removeNode hremove
  | edgeRemoved hremove => apply h.removeEdge hremove
  | updated hupdate => apply h.updateNode hupdate
  | connected hconnect => apply h.connect hconnect

/-- A run keeps the graph valid, if the ids it draws are fresh. -/
theorem valid_run (h : s.graph.Valid) {cs : List Command} (hfresh : s.DrawsFresh supply cs) :
  (s.run supply cs).2.graph.Valid
  := by
  induction cs generalizing s with
  | nil => apply h
  | cons c cs ih =>
    obtain ⟨hc, hcs⟩ := hfresh
    apply ih _ hcs
    apply valid_perform h c hc

/-- Wherever an editor begins and whatever it is told to do, its graph has nodes with distinct ids
and edges between nodes of the graph, and no edge is a loop, repeats another one or lies on a
cycle.  The ids drawn for new nodes must not be taken. -/
theorem valid_of_initial {s : Session} (h : s.graph.Initial) {supply : Nat → String}
    {cs : List Command} (hfresh : s.DrawsFresh supply cs) :
  (s.run supply cs).2.graph.Valid
  := by
  apply valid_run h.valid hfresh

/-- The input is connected to an operation, disconnected and connected again, and a second
operation is added. -/
def reconnecting : List Command :=
  [.addOperation .stemming .origin, .connect "1" "a0", .removeEdge "1", .connect "1" "a0",
    .addOperation .tokenization .origin]

/-- In a run that begins with the input, the ids of the two operations are fresh. -/
theorem drawsFresh_reconnecting :
  DrawsFresh (fun n => "a" ++ toString n) ⟨.withInput, 0⟩ reconnecting
  := by
  simp only [DrawsFresh, reconnecting, reduceCtorEq, false_implies, implies_true, true_and,
    and_true]
  constructor
  · intro _ _ _
    cbv
  · intro _ _ _
    cbv

/-- The graph is valid after the input has been connected twice. -/
theorem valid_reconnecting :
  (Session.mk .withInput 0).graph.Initial ∧
    DrawsFresh (fun n => "a" ++ toString n) ⟨.withInput, 0⟩ reconnecting ∧
    (run (fun n => "a" ++ toString n) ⟨.withInput, 0⟩ reconnecting).2.graph.Valid
  := by
  use .withInput, drawsFresh_reconnecting
  apply valid_of_initial .withInput drawsFresh_reconnecting

end Session

/-- A graph that a run of an editor leads to is valid. -/
theorem Graph.Reachable.valid {g : Graph} (h : g.Reachable) :
  g.Valid
  := by
  obtain ⟨supply, s, cs, hinitial, hfresh, rfl⟩ := h
  apply Session.valid_run hinitial.valid hfresh

/-- A graph that is loaded from a document is one that an editor may have made. -/
theorem Graph.reachable_of_ofDocument {d : Document} {g : Graph} (h : Graph.ofDocument d = .ok g) :
  g.Reachable
  := ⟨fun _ => "", ⟨g, 0⟩, [], .ofDocument h, trivial, rfl⟩

/-! ### Graphs as documents -/

/-- Each edge of a valid graph is accepted again after the edges before it. -/
theorem Graph.Valid.addEdge_front {g : Graph} (h : g.Valid) {front back : List Edge} {e : Edge}
    (hg : g.edges = front ++ e :: back) :
  (⟨g.nodes, front⟩ : Graph).addEdge e = .ok ⟨g.nodes, front ++ [e]⟩
  := by
  have hwith : (⟨g.nodes, front ++ [e]⟩ : Graph).Valid := by
    apply h.of_sublist
    rw [hg, List.append_cons front e back]
    apply List.sublist_append_left
  have hwithout : (⟨g.nodes, front⟩ : Graph).Valid := by
    apply hwith.of_sublist
    apply List.sublist_append_left
  apply addEdge_eq_ok_iff.mpr ⟨hwithout.refusal?_eq_none_iff.mpr hwith, rfl⟩

/-- At every point of a run the graph can be written down as a document and loaded again.  The
loaded graph has the same nodes and edges in the same order, none of the edges being refused, and
from there on an editor answers as it would have answered. -/
theorem Graph.Reachable.ofDocument_toDocument {g : Graph} (h : g.Reachable) :
  (∃ g', ofDocument g.toDocument = .ok g' ∧ g'.nodes = g.nodes ∧ g'.edges = g.edges ∧
      ∀ supply drawn cs, Session.run supply ⟨g', drawn⟩ cs = Session.run supply ⟨g, drawn⟩ cs) ∧
    ∀ front e back, g.edges = front ++ e :: back →
      (⟨g.nodes, front⟩ : Graph).addEdge e = .ok ⟨g.nodes, front ++ [e]⟩
  := by
  constructor
  · use g, ofDocument_eq_ok_iff.mpr ⟨h.valid, rfl⟩, rfl, rfl
    intro _ _ _
    rfl
  · intro front e back hg
    apply h.valid.addEdge_front hg

/-- The graph in which the input has been connected twice can be loaded from its document. -/
theorem Graph.ofDocument_toDocument_reconnecting :
  Graph.Reachable (Session.run (fun n => "a" ++ toString n) ⟨.withInput, 0⟩
      Session.reconnecting).2.graph ∧
    ∃ g', ofDocument (Session.run (fun n => "a" ++ toString n) ⟨.withInput, 0⟩
      Session.reconnecting).2.graph.toDocument = .ok g' ∧
        g'.edges = [⟨"1", "1", "a0"⟩]
  := by
  have h : Graph.Reachable (Session.run (fun n => "a" ++ toString n) ⟨.withInput, 0⟩
      Session.reconnecting).2.graph :=
    ⟨_, _, _, .withInput, Session.drawsFresh_reconnecting, rfl⟩
  obtain ⟨g', hload, -, hedges, -⟩ := h.ofDocument_toDocument.1
  use h, g', hload
  rw [hedges]
  cbv

end TextPipeline
