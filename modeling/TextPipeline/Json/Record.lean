import TextPipeline.Json.Pass

/-!
# Records

A record is read field by field into a draft, which at the end either has all it needs or lacks a
field.  Written as an object, a record may have its fields in any order and other members among
them; written as an array, it has its fields in their order and nothing else.
-/

namespace TextPipeline

/-- A field of a record that is read into drafts of type `σ`. -/
structure Field (σ : Type) where
  name : String
  isSet : σ → Bool
  read : σ → Reader σ

/-- How a record of type `α` is read: its fields in their order, the draft without any of them,
and the record that a draft makes, or the name of the first field that it lacks. -/
structure Record (σ α : Type) where
  name : String
  fields : List (Field σ)
  blank : σ
  finish : σ → Except String α

namespace Record

variable {σ α : Type}

/-- The reader of the member of a given name. -/
def take (r : Record σ α) (draft : σ) (name : String) : Except Fault (Reader σ) :=
  match r.fields.find? (·.name = name) with
  | none => .ok (Reader.pass draft)
  | some field =>
    if field.isSet draft then .error (.mismatch (.repeatedField name))
    else .ok (field.read draft)

/-- The elements for the given fields that follow `count` elements, up to the end of the array if
it comes first. -/
def moreElements (draft : σ) (count : Nat) :
    List (Field σ) → List Token → Except Fault ((σ × Nat) × List Token)
  | [], ts => .ok ((draft, count), ts)
  | field :: fields, .comma :: ts => match (field.read draft).run ts with
    | .error e => .error e
    | .ok (draft', rest) => moreElements draft' (count + 1) fields rest
  | _ :: _, .closeArray :: ts => .ok ((draft, count), .closeArray :: ts)
  | _ :: _, _ => .error .malformed

/-- The elements for the given fields after the opening bracket. -/
def elements (draft : σ) :
    List (Field σ) → List Token → Except Fault ((σ × Nat) × List Token)
  | [], ts => .ok ((draft, 0), ts)
  | _ :: _, .closeArray :: ts => .ok ((draft, 0), .closeArray :: ts)
  | field :: fields, ts => match (field.read draft).run ts with
    | .error e => .error e
    | .ok (draft', rest) => moreElements draft' 1 fields rest

/-- The elements that follow take no token back. -/
theorem length_of_moreElements {draft : σ} {count : Nat} {fields : List (Field σ)}
    {ts rest : List Token} {a : σ × Nat}
    (h : moreElements draft count fields ts = .ok (a, rest)) :
  rest.length ≤ ts.length
  := by
  fun_induction moreElements draft count fields ts with
  | case1 => simp_all
  | case2 draft count field fields ts e hr => simp at h
  | case3 draft count field fields ts draft' mid hr ih =>
    have := (field.read draft).takes hr
    have := ih h
    simp only [List.length_cons]
    omega
  | case4 => simp_all
  | case5 => simp at h

/-- The elements take no token back. -/
theorem length_of_elements {draft : σ} {fields : List (Field σ)} {ts rest : List Token}
    {a : σ × Nat} (h : elements draft fields ts = .ok (a, rest)) :
  rest.length ≤ ts.length
  := by
  unfold elements at h
  split at h
  · simp_all
  · simp_all
  · next field fields _ =>
    split at h
    · simp at h
    · next hr =>
      have := (field.read draft).takes hr
      have := length_of_moreElements h
      omega

/-- The record that the members of an object make, after the opening brace. -/
def ofMembers (r : Record σ α) (ts : List Token) : Except Fault (α × List Token) :=
  match Reader.members r.take r.blank ts with
  | .error e => .error e
  | .ok (draft, rest) => match r.finish draft with
    | .error name => .error (.mismatch (.missingField name))
    | .ok a => .ok (a, rest)

/-- The record that the elements of an array make, after the opening bracket. -/
def ofElements (r : Record σ α) (ts : List Token) : Except Fault (α × List Token) :=
  match elements r.blank r.fields ts with
  | .error e => .error e
  | .ok ((draft, count), rest) => match rest with
    | .closeArray :: after => match r.finish draft with
      | .error _ => .error (.mismatch (.tooShort count r.name r.fields.length))
      | .ok a => .ok (a, after)
    | _ => .error .malformed

/-- The members of a record take at least the closing brace. -/
theorem length_of_ofMembers {r : Record σ α} {ts rest : List Token} {a : α}
    (h : r.ofMembers ts = .ok (a, rest)) :
  rest.length < ts.length
  := by
  unfold ofMembers at h
  split at h
  · simp at h
  · next hm =>
    have := Reader.length_of_members hm
    split at h <;> simp_all

/-- The elements of a record take at least the closing bracket. -/
theorem length_of_ofElements {r : Record σ α} {ts rest : List Token} {a : α}
    (h : r.ofElements ts = .ok (a, rest)) :
  rest.length < ts.length
  := by
  unfold ofElements at h
  split at h
  · simp at h
  · next he =>
    have := length_of_elements he
    split at h
    · split at h
      · simp at h
      · simp only [Except.ok.injEq, Prod.mk.injEq] at h
        simp only [List.length_cons] at this
        simp only [← h.2]
        omega
    · simp at h

/-- The reader of a record in which `room` more arrays and objects may be open, given how the
record is read when it is open itself. -/
def reader (room : Nat) (r : Nat → Record σ α) : Reader α where
  run
    | .openObject :: ts => match room with
      | 0 => .error .malformed
      | room + 1 => (r room).ofMembers ts
    | .openArray :: ts => match room with
      | 0 => .error .malformed
      | room + 1 => (r room).ofElements ts
    | ts => .error (.instead (.record (r room).name) ts)
  takes := by
    intro ts a rest h
    split at h
    · cases room with
      | zero => simp at h
      | succ room =>
        have := length_of_ofMembers h
        simp only [List.length_cons]
        omega
    · cases room with
      | zero => simp at h
      | succ room =>
        have := length_of_ofElements h
        simp only [List.length_cons]
        omega
    · simp at h

end Record

end TextPipeline
