import TextPipeline.Json.Reader

/-!
# Reading values

A JSON text is read into the value it stands for.  At most 127 arrays and objects may be open at
one place.  A name that an object has more than once keeps its last value.
-/

namespace TextPipeline

namespace Reader

/-- The number as a value. -/
def ofNumber : Number → Json
  | .int n => .int n
  | .double d => .double d

/-- The reader of values, given the reader of the values inside arrays and objects unless none may
be opened. -/
def valueWith (inner : Option (Reader Json)) : Reader Json where
  run
    | .null :: ts => .ok (.null, ts)
    | .bool b :: ts => .ok (.bool b, ts)
    | .number n :: ts => .ok (ofNumber n, ts)
    | .text s :: ts => .ok (.str s, ts)
    | .openArray :: ts => match inner with
      | none => .error .malformed
      | some item => match elements item ts with
        | .error e => .error e
        | .ok (xs, rest) => .ok (.arr xs, rest)
    | .openObject :: ts => match inner with
      | none => .error .malformed
      | some item =>
        let take (ms : Named Json) (name : String) := .ok (item.map fun v => ms.insert name v)
        match members take [] ts with
        | .error e => .error e
        | .ok (ms, rest) => .ok (.obj ms, rest)
    | _ => .error .malformed
  takes := by
    intro ts a rest h
    split at h
    case h_5 =>
      split at h
      · simp at h
      · split at h
        · simp at h
        · next he =>
          have := length_of_elements he
          simp only [Except.ok.injEq, Prod.mk.injEq] at h
          simp only [List.length_cons, ← h.2]
          omega
    case h_6 =>
      split at h
      · simp at h
      · simp only at h
        split at h
        · simp at h
        · next he =>
          have := length_of_members he
          simp only [Except.ok.injEq, Prod.mk.injEq] at h
          simp only [List.length_cons, ← h.2]
          omega
    all_goals simp_all

/-- The reader of values in which `room` arrays and objects may be open at one place. -/
def value : Nat → Reader Json
  | 0 => valueWith none
  | room + 1 => valueWith (some (value room))

/-- The reader of an object with any members, in which `room` arrays and objects may be open at
one place. -/
def object (room : Nat) : Reader (Named Json) where
  run
    | .openObject :: ts => match room with
      | 0 => .error .malformed
      | room + 1 =>
        let take (ms : Named Json) (name : String) :=
          .ok ((value room).map fun v => ms.insert name v)
        members take [] ts
    | ts => .error (.instead .object ts)
  takes := by
    intro ts ms rest h
    split at h
    · cases room with
      | zero => simp at h
      | succ room =>
        have := length_of_members h
        simp only [List.length_cons]
        omega
    · simp at h

end Reader

namespace Json

/-- The number of arrays and objects that may be open at one place of a text. -/
def maxDepth : Nat := 127

/-- The value that a text stands for. -/
def parse (text : String) : Except Fault Json :=
  (Reader.value maxDepth).whole (Token.scan text.toList)

/-- The members of the object that a text stands for. -/
def parseObject (text : String) : Except Fault (Named Json) :=
  (Reader.object maxDepth).whole (Token.scan text.toList)

end Json

end TextPipeline
