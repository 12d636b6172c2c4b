import TextPipeline.Json.Token
import TextPipeline.Text.Quoted

/-!
# Faults

What is wrong with a JSON text.  A text is malformed when it is no JSON text at all.  Where the
text is well formed so far, a value may still have the wrong kind, and a record may lack a field
or have one twice.
-/

namespace TextPipeline

/-- The kind of a value that was found. -/
inductive Found where
  | null
  | bool (value : Bool)
  | number (value : Number)
  | text (value : String)
  | array
  | object
deriving DecidableEq

/-- What a value should have been. -/
inductive Wanted where
  | text
  | number
  | array
  | object
  | record (name : String)
deriving DecidableEq, Repr

/-- A value that is not as it should be. -/
inductive Mismatch where
  | wrongKind (found : Found) (wanted : Wanted)
  | missingField (name : String)
  | repeatedField (name : String)
  /-- A record was written as an array of `count` elements, which are not enough. -/
  | tooShort (count : Nat) (record : String) (size : Nat)
deriving DecidableEq

/-- What is wrong with a text. -/
inductive Fault where
  | malformed
  | mismatch (cause : Mismatch)
deriving DecidableEq

/-- The text of a number. -/
def Number.text : Number → String
  | .int n => toString n
  | .double d => String.ofList (jsonStyle.text d)

/-- The kind of a value as a message names it. -/
def Found.phrase : Found → String
  | .null => "null"
  | .bool b => "boolean " ++ backticked (toString b)
  | .number (.int n) => "integer " ++ backticked (toString n)
  | .number (.double d) => "floating point " ++ backticked (Number.double d).text
  | .text s => "string " ++ quoted s
  | .array => "sequence"
  | .object => "map"

/-- What a value should have been, as a message names it. -/
def Wanted.phrase : Wanted → String
  | .text => "a string"
  | .number => "f64"
  | .array => "a sequence"
  | .object => "a map"
  | .record name => "struct " ++ name

/-- The message about a value that is not as it should be. -/
def Mismatch.message : Mismatch → String
  | .wrongKind found wanted => "invalid type: " ++ found.phrase ++ ", expected " ++ wanted.phrase
  | .missingField name => "missing field " ++ backticked name
  | .repeatedField name => "duplicate field " ++ backticked name
  | .tooShort count record size =>
    "invalid length " ++ toString count ++ ", expected struct " ++ record ++ " with " ++
      toString size ++ " elements"

/-- The kind of the value that a token begins, if it begins one. -/
def Token.found? : Token → Option Found
  | .null => some .null
  | .bool b => some (.bool b)
  | .number n => some (.number n)
  | .text s => some (.text s)
  | .openArray => some .array
  | .openObject => some .object
  | _ => none

/-- What is wrong where a value of another kind should have begun. -/
def Fault.instead (wanted : Wanted) : List Token → Fault
  | [] => .malformed
  | t :: _ => match t.found? with
    | some found => .mismatch (.wrongKind found wanted)
    | none => .malformed

end TextPipeline
