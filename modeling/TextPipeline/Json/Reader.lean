import TextPipeline.Json.Basic
import TextPipeline.Json.Fault

/-!
# Readers

A reader takes a value from the front of a list of tokens, or says what is wrong there.  The
first fault in the order of the tokens is the one that is told, since a reader looks at a token
only after it has accepted those before it.  Every reader takes at least one token, which is why
the readers of arrays and objects come to an end.

A record is written as an object with named fields, of which the unknown ones are passed over, or
as the array of its fields in their order.
-/

namespace TextPipeline

/-- A reader of values from lists of tokens. -/
structure Reader (α : Type) where
  run : List Token → Except Fault (α × List Token)
  takes : ∀ {ts a rest}, run ts = .ok (a, rest) → rest.length < ts.length

namespace Reader

variable {α β σ : Type}

/-- The reader that changes what another one has read. -/
def map (f : α → β) (r : Reader α) : Reader β where
  run ts := match r.run ts with
    | .ok (a, rest) => .ok (f a, rest)
    | .error e => .error e
  takes := by
    intro ts b rest h
    split at h
    · next hr =>
      simp only [Except.ok.injEq, Prod.mk.injEq] at h
      exact h.2 ▸ r.takes hr
    · simp at h

/-- The value of a whole list of tokens. -/
def whole (r : Reader α) (ts : List Token) : Except Fault α :=
  match r.run ts with
  | .ok (a, []) => .ok a
  | .ok (_, _ :: _) => .error .malformed
  | .error e => .error e

/-- The reader of a value that is a single token. -/
def single (f : Token → Except Fault α) : Reader α where
  run
    | [] => .error .malformed
    | t :: ts => match f t with
      | .ok a => .ok (a, ts)
      | .error e => .error e
  takes := by
    intro ts a rest h
    cases ts with
    | nil => simp at h
    | cons t ts =>
      simp only at h
      split at h <;> simp_all

/-- The reader of a text. -/
def text : Reader String :=
  single fun
    | .text s => .ok s
    | t => .error (.instead .text [t])

/-- The reader of a number, which is rounded to the binary64 format. -/
def number : Reader Double :=
  single fun
    | .number (.double d) => .ok d
    | .number (.int n) => match Double.nearest (n < 0) n.natAbs 1 with
      | some d => .ok d
      | none => .error .malformed
    | t => .error (.instead .number [t])

/-! ## Arrays -/

/-- The elements of an array that follow one of its elements. -/
def moreElements (item : Reader α) : List Token → Except Fault (List α × List Token)
  | .closeArray :: ts => .ok ([], ts)
  | .comma :: ts => match _h : item.run ts with
    | .error e => .error e
    | .ok (a, rest) => match moreElements item rest with
      | .error e => .error e
      | .ok (as, after) => .ok (a :: as, after)
  | _ => .error .malformed
termination_by ts => ts.length
decreasing_by
  have := item.takes ‹_›
  simp
  omega

/-- The elements of an array after its opening bracket. -/
def elements (item : Reader α) : List Token → Except Fault (List α × List Token)
  | .closeArray :: ts => .ok ([], ts)
  | ts => match item.run ts with
    | .error e => .error e
    | .ok (a, rest) => match moreElements item rest with
      | .error e => .error e
      | .ok (as, after) => .ok (a :: as, after)

/-- The elements that follow take at least the closing bracket. -/
theorem length_of_moreElements {item : Reader α} {ts rest : List Token} {as : List α}
    (h : moreElements item ts = .ok (as, rest)) :
  rest.length < ts.length
  := by
  fun_induction moreElements item ts generalizing as rest with
  | case1 ts => simp_all
  | case2 ts e hr => simp at h
  | case3 ts a after hr e hm ih => simp at h
  | case4 ts a mid hr bs after hm ih =>
    have := item.takes hr
    have := ih hm
    simp only [Except.ok.injEq, Prod.mk.injEq] at h
    simp only [List.length_cons, ← h.2]
    omega
  | case5 => simp at h

/-- The elements of an array take at least the closing bracket. -/
theorem length_of_elements {item : Reader α} {ts rest : List Token} {as : List α}
    (h : elements item ts = .ok (as, rest)) :
  rest.length < ts.length
  := by
  unfold elements at h
  split at h
  · simp_all
  · split at h
    · simp at h
    · next hr =>
      split at h
      · simp at h
      · next hm =>
        have := item.takes hr
        have := length_of_moreElements hm
        simp only [Except.ok.injEq, Prod.mk.injEq] at h
        simp only [← h.2]
        omega

/-- The reader of an array in which `room` more arrays and objects may be open. -/
def array (room : Nat) (item : Nat → Reader α) : Reader (List α) where
  run
    | .openArray :: ts => match room with
      | 0 => .error .malformed
      | room + 1 => elements (item room) ts
    | ts => .error (.instead .array ts)
  takes := by
    intro ts as rest h
    split at h
    · cases room with
      | zero => simp at h
      | succ room =>
        have := length_of_elements h
        simp only [List.length_cons]
        omega
    · simp at h

/-! ## Objects -/

/-- A member of an object.  The name decides how the value is read, which gives the new state. -/
def member (take : σ → String → Except Fault (Reader σ)) (s : σ) :
    List Token → Except Fault (σ × List Token)
  | .text name :: ts => match take s name with
    | .error e => .error e
    | .ok r => match ts with
      | .colon :: rest => r.run rest
      | _ => .error .malformed
  | _ => .error .malformed

/-- A member takes its name, the colon and the value. -/
theorem length_of_member {take : σ → String → Except Fault (Reader σ)} {s s' : σ}
    {ts rest : List Token} (h : member take s ts = .ok (s', rest)) :
  rest.length < ts.length
  := by
  unfold member at h
  split at h
  · split at h
    · simp at h
    · next r hr =>
      split at h
      · have := r.takes h
        simp only [List.length_cons]
        omega
      · simp at h
  · simp at h

/-- The members of an object that follow one of its members. -/
def moreMembers (take : σ → String → Except Fault (Reader σ)) (s : σ) :
    List Token → Except Fault (σ × List Token)
  | .closeObject :: ts => .ok (s, ts)
  | .comma :: ts => match _h : member take s ts with
    | .error e => .error e
    | .ok (s', rest) => moreMembers take s' rest
  | _ => .error .malformed
termination_by ts => ts.length
decreasing_by
  have := length_of_member ‹_›
  simp
  omega

/-- The members of an object after its opening brace. -/
def members (take : σ → String → Except Fault (Reader σ)) (s : σ) :
    List Token → Except Fault (σ × List Token)
  | .closeObject :: ts => .ok (s, ts)
  | ts => match member take s ts with
    | .error e => .error e
    | .ok (s', rest) => moreMembers take s' rest

/-- The members that follow take at least the closing brace. -/
theorem length_of_moreMembers {take : σ → String → Except Fault (Reader σ)} {s s' : σ}
    {ts rest : List Token} (h : moreMembers take s ts = .ok (s', rest)) :
  rest.length < ts.length
  := by
  fun_induction moreMembers take s ts with
  | case1 s ts => simp_all
  | case2 s ts e hm => simp at h
  | case3 s ts t mid hm ih =>
    have := length_of_member hm
    have := ih h
    simp only [List.length_cons]
    omega
  | case4 => simp at h

/-- The members of an object take at least the closing brace. -/
theorem length_of_members {take : σ → String → Except Fault (Reader σ)} {s s' : σ}
    {ts rest : List Token} (h : members take s ts = .ok (s', rest)) :
  rest.length < ts.length
  := by
  unfold members at h
  split at h
  · simp_all
  · split at h
    · simp at h
    · next hm =>
      have := length_of_member hm
      have := length_of_moreMembers h
      omega

end Reader

end TextPipeline
