import TextPipeline.Proofs.Json.Grammar

/-!
# Passing over values

A value is passed over as a whole: the pass that awaits it, with any brackets open around it,
comes to its end and to nowhere before, whatever follows.  This holds of every list of tokens that
is a value, however deep it is and whatever its strings and numbers are.
-/

namespace TextPipeline

namespace Pass

/-- What follows the value when the pass goes on, or at once if the pass has come to its end. -/
def resume (p : Pass) (ts : List Token) : Option (List Token) :=
  if p.isDone then some ts else p.run ts

/-- After a step the pass goes on. -/
theorem run_cons {p p' : Pass} {t : Token} (h : p.step t = some p') (ts : List Token) :
  p.run (t :: ts) = p'.resume ts
  := by
  rw [run, h]
  rfl

/-- A pass with an open bracket goes on. -/
theorem resume_cons (awaiting : Awaiting) (b : Bracket) (stack : List Bracket) (ts : List Token) :
  resume ⟨awaiting, b :: stack⟩ ts = run ⟨awaiting, b :: stack⟩ ts
  := by
  simp [resume, isDone]

/-- A pass that awaits something else than the end goes on. -/
theorem resume_of_ne {awaiting : Awaiting} (h : awaiting ≠ .next) (stack : List Bracket)
    (ts : List Token) :
  resume ⟨awaiting, stack⟩ ts = run ⟨awaiting, stack⟩ ts
  := by
  simp [resume, isDone, h]

/-- The tokens are passed over where a value is awaited, whatever is open around it and whatever
follows it. -/
def Passes (ts : List Token) : Prop :=
  ∀ stack rest, run ⟨.value, stack⟩ (ts ++ rest) = resume ⟨.next, stack⟩ rest

/-- A token by itself is passed over if it is a scalar. -/
theorem passes_scalar {t : Token} (h : t.isScalar = true) :
  Passes [t]
  := by
  intro stack rest
  apply run_cons
  cases t <;> simp_all [step, begin, Token.isScalar]

/-! ### Arrays -/

/-- A value that may be the first element of an array is passed over like any other one. -/
theorem run_element {t : Token} (h : t ≠ .closeArray) (stack : List Bracket) (ts : List Token) :
  run ⟨.element, stack⟩ (t :: ts) = run ⟨.value, stack⟩ (t :: ts)
  := by
  have hstep : step ⟨.element, stack⟩ t = step ⟨.value, stack⟩ t := by
    cases t <;> first | rfl | exact absurd rfl h
  rw [run, run, hstep]

/-- The elements of an array that follow one of them are passed over. -/
theorem run_moreElements {elements : List (List Token)} (h : ∀ ts ∈ elements, Passes ts)
    (stack : List Bracket) (rest : List Token) :
  run ⟨.next, .array :: stack⟩ (Token.moreItems .closeArray elements ++ rest)
    = resume ⟨.next, stack⟩ rest
  := by
  induction elements with
  | nil => apply run_cons rfl
  | cons ts elements ih =>
    have hcomma : step ⟨.next, .array :: stack⟩ .comma = some ⟨.value, .array :: stack⟩ := rfl
    have hmore := ih fun us hus => h us (List.mem_cons_of_mem ts hus)
    rw [Token.moreItems, List.cons_append, List.append_assoc, run_cons hcomma, resume_cons,
      h ts List.mem_cons_self, resume_cons, hmore]

/-- An array is passed over if its elements are, none of which begins with a closing bracket. -/
theorem passes_arrayOf {elements : List (List Token)} (h : ∀ ts ∈ elements, Passes ts)
    (hvalue : ∀ ts ∈ elements, Token.IsValue ts) :
  Passes (Token.arrayOf elements)
  := by
  intro stack rest
  have hopen : step ⟨.value, stack⟩ .openArray = some ⟨.element, .array :: stack⟩ := rfl
  rw [Token.arrayOf, List.cons_append, run_cons hopen, resume_cons]
  cases elements with
  | nil => apply run_cons rfl
  | cons ts elements =>
    -- the array might have ended here, but no value begins with a closing bracket
    obtain ⟨t, front, rfl, ht⟩ := (hvalue ts List.mem_cons_self).exists_eq_cons
    have hfirst := h (t :: front) List.mem_cons_self (.array :: stack)
    have hmore := run_moreElements (fun us hus => h us (List.mem_cons_of_mem _ hus)) stack rest
    rw [Token.items, List.append_assoc, List.cons_append, run_element ht, ← List.cons_append,
      hfirst, resume_cons, hmore]

/-! ### Objects -/

/-- A member is passed over where its name is in place. -/
theorem run_member {awaiting : Awaiting} {stack : List Bracket} {name : Token} {ts : List Token}
    (hname : step ⟨awaiting, stack⟩ name = some ⟨.colon, stack⟩) (h : Passes ts)
    (rest : List Token) :
  run ⟨awaiting, stack⟩ (name :: .colon :: (ts ++ rest)) = resume ⟨.next, stack⟩ rest
  := by
  have hcolon : step ⟨.colon, stack⟩ .colon = some ⟨.value, stack⟩ := rfl
  rw [run_cons hname, resume_of_ne (by decide), run_cons hcolon, resume_of_ne (by decide), h]

/-- A string is in place where a name is awaited. -/
theorem step_name {awaiting : Awaiting} (h : awaiting = .name ∨ awaiting = .member)
    {name : Token} (hname : name.isString = true) (stack : List Bracket) :
  step ⟨awaiting, stack⟩ name = some ⟨.colon, stack⟩
  := by
  obtain rfl | rfl := h <;> cases name <;> simp_all [step, named, Token.isString]

/-- The members of an object that follow one of them are passed over. -/
theorem run_moreMembers {members : List (Token × List Token)}
    (hnames : ∀ m ∈ members, m.1.isString = true) (h : ∀ m ∈ members, Passes m.2)
    (stack : List Bracket) (rest : List Token) :
  run ⟨.next, .object :: stack⟩
      (Token.moreItems .closeObject (members.map fun m => m.1 :: .colon :: m.2) ++ rest)
    = resume ⟨.next, stack⟩ rest
  := by
  induction members with
  | nil => apply run_cons rfl
  | cons m members ih =>
    have hcomma : step ⟨.next, .object :: stack⟩ .comma = some ⟨.name, .object :: stack⟩ := rfl
    have hname := step_name (.inl rfl) (hnames m List.mem_cons_self) (.object :: stack)
    have hmore := ih (fun w hw => hnames w (List.mem_cons_of_mem m hw))
      (fun w hw => h w (List.mem_cons_of_mem m hw))
    rw [List.map_cons, Token.moreItems, List.cons_append, List.append_assoc, List.cons_append,
      List.cons_append, run_cons hcomma, resume_cons, run_member hname (h m List.mem_cons_self),
      resume_cons, hmore]

/-- An object is passed over if the values of its members are. -/
theorem passes_objectOf {members : List (Token × List Token)}
    (hnames : ∀ m ∈ members, m.1.isString = true) (h : ∀ m ∈ members, Passes m.2) :
  Passes (Token.objectOf members)
  := by
  intro stack rest
  have hopen : step ⟨.value, stack⟩ .openObject = some ⟨.member, .object :: stack⟩ := rfl
  rw [Token.objectOf, List.cons_append, run_cons hopen, resume_cons]
  cases members with
  | nil => apply run_cons rfl
  | cons m members =>
    have hname := step_name (.inr rfl) (hnames m List.mem_cons_self) (.object :: stack)
    have hmore := run_moreMembers (fun w hw => hnames w (List.mem_cons_of_mem m hw))
      (fun w hw => h w (List.mem_cons_of_mem m hw)) stack rest
    rw [List.map_cons, Token.items, List.append_assoc, List.cons_append, List.cons_append,
      run_member hname (h m List.mem_cons_self), resume_cons, hmore]

end Pass

/-- Every value is passed over. -/
theorem Token.IsValue.passes {ts : List Token} (h : IsValue ts) :
  Pass.Passes ts
  := by
  induction h with
  | scalar h => apply Pass.passes_scalar h
  | array h ih => apply Pass.passes_arrayOf ih h
  | object hnames _ ih => apply Pass.passes_objectOf hnames ih

end TextPipeline
