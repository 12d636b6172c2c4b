import TextPipeline.Json.Reader

/-!
# Values that are passed over

A value whose content is not wanted is passed over token by token.  Only its brackets, commas and
colons have to be in their places: arrays and objects may be nested to any depth, surrogates need
no partners and numbers no bounds.
-/

namespace TextPipeline

/-- A bracket that is open. -/
inductive Bracket where
  | array
  | object
deriving DecidableEq, Repr

/-- What may come next in a value that is passed over. -/
inductive Awaiting where
  | value
  /-- The first element of an array, or its end. -/
  | element
  /-- The first name of an object, or its end. -/
  | member
  | name
  | colon
  /-- A comma, or the end of the innermost array or object. -/
  | next
deriving DecidableEq, Repr

/-- How far a value has been passed over, with the innermost open bracket first. -/
structure Pass where
  awaiting : Awaiting
  stack : List Bracket
deriving DecidableEq, Repr

/-- Whether a token is a value by itself. -/
def Token.isScalar : Token → Bool
  | .null | .bool _ | .number _ | .text _ | .unpaired | .outOfRange => true
  | _ => false

/-- Whether a token is a string. -/
def Token.isString : Token → Bool
  | .text _ | .unpaired => true
  | _ => false

namespace Pass

/-- The step over a token that begins a value. -/
def begin (stack : List Bracket) : Token → Option Pass
  | .openArray => some ⟨.element, .array :: stack⟩
  | .openObject => some ⟨.member, .object :: stack⟩
  | t => if t.isScalar then some ⟨.next, stack⟩ else none

/-- The step over a token that names a member. -/
def named (stack : List Bracket) (t : Token) : Option Pass :=
  if t.isString then some ⟨.colon, stack⟩ else none

/-- The step over one token, or nothing if the token is out of place. -/
def step (p : Pass) (t : Token) : Option Pass :=
  match p.awaiting, t with
  | .value, t => begin p.stack t
  | .element, .closeArray => some ⟨.next, p.stack.drop 1⟩
  | .element, t => begin p.stack t
  | .member, .closeObject => some ⟨.next, p.stack.drop 1⟩
  | .member, t => named p.stack t
  | .name, t => named p.stack t
  | .colon, .colon => some ⟨.value, p.stack⟩
  | .colon, _ => none
  | .next, t => match p.stack, t with
    | .array :: outer, .closeArray => some ⟨.next, outer⟩
    | .array :: outer, .comma => some ⟨.value, .array :: outer⟩
    | .object :: outer, .closeObject => some ⟨.next, outer⟩
    | .object :: outer, .comma => some ⟨.name, .object :: outer⟩
    | _, _ => none

/-- Whether the whole value has been passed over. -/
def isDone (p : Pass) : Bool :=
  p.awaiting = .next && p.stack.isEmpty

/-- What follows the value. -/
def run (p : Pass) : List Token → Option (List Token)
  | [] => none
  | t :: ts => match p.step t with
    | none => none
    | some p' => if p'.isDone then some ts else p'.run ts

/-- A value takes at least one token. -/
theorem length_of_run {p : Pass} {ts rest : List Token} (h : p.run ts = some rest) :
  rest.length < ts.length
  := by
  induction ts generalizing p with
  | nil => simp [run] at h
  | cons t ts ih =>
    simp only [run] at h
    split at h
    · simp at h
    · split at h
      · simp only [Option.some.injEq] at h
        simp [h]
      · have := ih h
        simp only [List.length_cons]
        omega

end Pass

namespace Reader

/-- The reader that passes over a value and gives `a` for it. -/
def pass {α : Type} (a : α) : Reader α where
  run ts := match (⟨.value, []⟩ : Pass).run ts with
    | some rest => .ok (a, rest)
    | none => .error .malformed
  takes := by
    intro ts b rest h
    split at h
    · next hp =>
      simp only [Except.ok.injEq, Prod.mk.injEq] at h
      exact h.2 ▸ Pass.length_of_run hp
    · simp at h

end Reader

end TextPipeline
