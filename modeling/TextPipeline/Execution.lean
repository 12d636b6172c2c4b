import TextPipeline.Json.Layout
import TextPipeline.Json.Value
import TextPipeline.Text.Blank

/-!
# Execution

A script is executed by a service, which takes it in the body of a request and answers with a
status and a body.  An answer is a success when its status says so, its body is an object with an
output, and neither of the members that tell of an error tells anything.
-/

namespace TextPipeline

/-- Why a script was not executed. -/
inductive ExecutionError where
  /-- The service was not reached. -/
  | transport (cause : String)
  /-- The status of the answer is no success. -/
  | status (code : Nat) (cause : String)
  /-- The answer tells of an error. -/
  | remote (cause : String)
  /-- The answer holds no output. -/
  | malformedResponse (cause : String)
deriving DecidableEq, Repr

namespace ExecutionError

/-- The message about a script that was not executed. -/
def message : ExecutionError → String
  | .transport cause => "Execution request failed: " ++ cause
  | .status code cause =>
    "Execution service responded with status " ++ toString code ++ ": " ++ cause
  | .remote cause => "Execution service reported an error: " ++ cause
  | .malformedResponse cause => "Execution response was malformed: " ++ cause

/-- What is shown to users, whatever the error. -/
def userMessage (_ : ExecutionError) : String :=
  "An error occurred while executing the code."

end ExecutionError

namespace Execution

/-- The address to which scripts are sent. -/
def url (endpoint : String) : String :=
  String.ofList (dropEndWhile (· = '/') endpoint.toList) ++ "/execute"

/-- The body of the request to execute a script. -/
def request (code : String) : Json :=
  .obj [("code", .str code)]

/-- The body of the answer of a service that has executed a script. -/
def answer (output : String) : Json :=
  .obj [("output", .str output)]

/-- The member of a value under a name, if the value is an object that has one. -/
def member? (v : Json) (name : String) : Option Json :=
  match v with
  | .obj ms => Named.get? name ms
  | _ => none

/-- What a member tells of an error.  Null and the empty text tell nothing. -/
def told : Json → Option String
  | .null => none
  | .str s => if s.isEmpty then none else some s
  | v => some (v.text .compact)

/-- What the value of a body tells of an error. -/
def errorOf (v : Json) : Option String :=
  ["error", "detail"].findSome? fun name => (member? v name).bind told

/-- The output that an answer holds. -/
def interpret (status : Nat) (body : String) : Except ExecutionError String :=
  let value := (Json.parse body).toOption
  let error := value.bind errorOf
  if status < 200 ∨ 300 ≤ status then
    .error (.status status (error.getD (String.ofList (trimBlank body.toList))))
  else match error, value with
    | some cause, _ => .error (.remote cause)
    | none, none => .error (.malformedResponse "response body is not valid JSON")
    | none, some v => match member? v "output" with
      | some (.str output) => .ok output
      | _ => .error (.malformedResponse "response has no string 'output' field")

end Execution

end TextPipeline
