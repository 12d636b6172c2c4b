import TextPipeline.Proofs.Editing

/-!
# Commands without effect

A command that only asks, one that is refused, and one that finds nothing to remove leave the
session as it was, the ids drawn so far included.  So all such commands can be left out of a run:
the others get the same answers without them, and the graph at the end is the same.  A text that
is not loaded does not change the graph, however far its document could be followed.
-/

namespace TextPipeline

/-- Whether a command only asks about the graph. -/
def Command.isQuery : Command → Bool
  | .node _ | .contains _ | .hasEdge _ _ | .isEmpty | .kindOf _ | .text | .compile _ | .rebuild =>
    true
  | _ => false

/-- Whether an answer tells of an error, or of nothing that could be removed. -/
def Answer.isRefusal : Answer → Bool
  | .refused _ | .notLoaded _ | .node none | .edge none => true
  | _ => false

/-- Whether a command with its answer is left out: it asks, is refused or removes nothing. -/
def Command.isIdle (c : Command) (answer : Answer) : Bool :=
  c.isQuery || answer.isRefusal

/-- The data of a node that the graph has can be changed, and then it still has the node. -/
theorem Graph.isSome_node?_of_updateNode {g g' : Graph} {id field value : String}
    (h : g.updateNode id field value = .ok g') :
  (g'.node? id).isSome = true
  := by
  apply contains_iff.mpr
  rw [ids_of_updateNode h]
  apply (updateNode_eq_ok_iff.mp h).1

namespace Session

variable {supply : Nat → String} {s : Session}

/-- A command leaves the session as it was, or it is one that is not left out. -/
theorem perform_eq_self_or (supply : Nat → String) (s : Session) (c : Command) :
  (s.perform supply c).2 = s ∨ c.isIdle (s.perform supply c).1 = false
  := by
  have hoccurs := occurs_perform supply s c
  generalize s.perform supply c = outcome at hoccurs ⊢
  cases hoccurs with
  | unchanged => exact .inl rfl
  | updated hupdate =>
    -- The answer is the changed node, which must be there for the answer not to tell of nothing.
    obtain ⟨n, hn⟩ := Option.isSome_iff_exists.mp (Graph.isSome_node?_of_updateNode hupdate)
    rw [hn]
    exact .inr rfl
  | _ => exact .inr rfl

/-- A command that is left out leaves the session as it was. -/
theorem perform_of_isIdle {c : Command} (h : c.isIdle (s.perform supply c).1 = true) :
  (s.perform supply c).2 = s
  := by
  obtain hself | hkept := perform_eq_self_or supply s c
  · apply hself
  · rw [hkept] at h
    simp at h

/-! ### Runs -/

/-- A run goes on from the session after its first command. -/
theorem run_cons (supply : Nat → String) (s : Session) (c : Command) (cs : List Command) :
  s.run supply (c :: cs)
    = ((s.perform supply c).1 :: ((s.perform supply c).2.run supply cs).1,
        ((s.perform supply c).2.run supply cs).2)
  := by
  rfl

/-- The last command of a run is carried out on the session after the others. -/
theorem run_concat (supply : Nat → String) (s : Session) (cs : List Command) (c : Command) :
  (s.run supply (cs ++ [c])).2 = ((s.run supply cs).2.perform supply c).2
  := by
  induction cs generalizing s with
  | nil => rfl
  | cons d cs ih =>
    rw [List.cons_append, run_cons, run_cons]
    apply ih

/-- The commands of a run with their answers. -/
def trace (supply : Nat → String) (s : Session) (cs : List Command) : List (Command × Answer) :=
  cs.zip (s.run supply cs).1

/-- The commands of a run that are not left out, with their answers. -/
def effective (supply : Nat → String) (s : Session) (cs : List Command) :
    List (Command × Answer) :=
  (s.trace supply cs).filter fun p => !p.1.isIdle p.2

/-- The first command of a run comes first among those that are not left out, unless it is left
out. -/
theorem effective_cons (c : Command) (cs : List Command) :
  s.effective supply (c :: cs)
    = (if c.isIdle (s.perform supply c).1 then [] else [(c, (s.perform supply c).1)]) ++
        (s.perform supply c).2.effective supply cs
  := by
  rw [effective, trace, run_cons, List.zip_cons_cons, List.filter_cons]
  cases c.isIdle (s.perform supply c).1 <;> rfl

/-- Without the commands that are left out a run gives the other answers and ends the same way. -/
theorem run_effective (s : Session) (cs : List Command) :
  s.run supply ((s.effective supply cs).map Prod.fst)
    = ((s.effective supply cs).map Prod.snd, (s.run supply cs).2)
  := by
  induction cs generalizing s with
  | nil => rfl
  | cons c cs ih =>
    rw [effective_cons, run_cons]
    split
    · next hidle =>
      rw [perform_of_isIdle hidle]
      apply ih
    · rw [List.singleton_append, List.map_cons, List.map_cons, run_cons, ih]

/-! ### Loading -/

/-- A text whose document is refused at its first violation, however far that is from its
beginning, is not loaded. -/
theorem perform_load_of_firstViolation {text : String} {d : Document} {cause : GraphError}
    (hparse : Document.parse text = .ok d) (h : d.FirstViolation cause) :
  s.perform supply (.load text) = (.notLoaded (.invalid cause), s)
  := by
  have hgraph : Graph.parse text = .error (.invalid cause) := by
    simp only [Graph.parse, hparse, Graph.ofDocument_eq_error_iff.mpr h, Except.mapError]
  rw [perform, hgraph]

/-- A text that cannot be read is not loaded. -/
theorem perform_load_of_fault {text : String} {fault : Fault}
    (hparse : Document.parse text = .error fault) :
  s.perform supply (.load text) = (.notLoaded (.unreadable fault), s)
  := by
  rw [perform, Graph.parse, hparse]

/-- In every run, a command that asks, is answered by an error or finds nothing to remove leaves
the nodes and edges as they are.  When all such commands are left out, the others get the answers
that they got, ids of new edges among them, and the graph at the end is the same.  A text that
cannot be read, or whose document has a first violation anywhere, leaves the session as it is. -/
theorem idle_commands_invisible (supply : Nat → String) (s : Session) (cs : List Command) :
  (∀ front c back, cs = front ++ c :: back →
    c.isIdle ((s.run supply front).2.perform supply c).1 = true →
      (s.run supply (front ++ [c])).2.graph = (s.run supply front).2.graph) ∧
  s.run supply ((s.effective supply cs).map Prod.fst)
    = ((s.effective supply cs).map Prod.snd, (s.run supply cs).2) ∧
  (∀ text fault, Document.parse text = .error fault →
    s.perform supply (.load text) = (.notLoaded (.unreadable fault), s)) ∧
  ∀ text d cause, Document.parse text = .ok d → d.FirstViolation cause →
    s.perform supply (.load text) = (.notLoaded (.invalid cause), s)
  := by
  refine ⟨?_, run_effective s cs, fun _ _ h => perform_load_of_fault h,
    fun _ _ _ hparse h => perform_load_of_firstViolation hparse h⟩
  rintro front c back - hidle
  rw [run_concat, perform_of_isIdle hidle]

/-- A node is connected to itself, which is refused, and to another one, which is not. -/
def hesitating : List Command :=
  [.addNode (.plain "a" "stemming"), .connect "a" "a", .addNode (.plain "b" "stemming"),
    .removeEdge "1", .contains "a", .connect "a" "b"]

/-- The refused connection changes nothing, and the edge gets the id that it gets without it. -/
theorem run_hesitating :
  (start.run (fun _ => "") (hesitating.take 2)).2.graph
      = (start.run (fun _ => "") (hesitating.take 1)).2.graph ∧
    start.run (fun _ => "")
        [.addNode (.plain "a" "stemming"), .addNode (.plain "b" "stemming"), .connect "a" "b"]
      = ([.done, .done, .id "1"], (start.run (fun _ => "") hesitating).2)
  := by
  obtain ⟨hstep, hrun, -⟩ := idle_commands_invisible (fun _ => "") start hesitating
  have heffective : start.effective (fun _ => "") hesitating
      = [(.addNode (.plain "a" "stemming"), .done), (.addNode (.plain "b" "stemming"), .done),
          (.connect "a" "b", .id "1")] := by
    cbv
  rw [heffective] at hrun
  constructor
  · apply hstep [.addNode (.plain "a" "stemming")] (.connect "a" "a") _ rfl
    cbv
  · apply hrun

end Session

end TextPipeline
