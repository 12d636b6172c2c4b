import TextPipeline.CommandLine.Program

/-!
# The command line

The program is carried out: files are read and written, and texts are printed.  No way to reach a
service is built in, so that every request fails like one to a service that is not there.
-/

namespace TextPipeline

/-- The number of an error of the system, which may be given with a minus sign. -/
def errorNumber (code : UInt32) : UInt32 :=
  if code < 0x80000000 then code else 0 - code

/-- The problem that an error of the system stands for. -/
def fileProblem : IO.Error → FileProblem
  | .noFileOrDirectory .. => .missing
  | e@(.inappropriateType _ code _) =>
    if errorNumber code = 20 then .notDirectory
    else if errorNumber code = 21 then .isDirectory
    else .other (toString e)
  | e@(.invalidArgument _ code _) =>
    if errorNumber code = 36 then .nameTooLong else .other (toString e)
  | e => .other (toString e)

/-- The text of the first of the files that there is one to read of. -/
def readFirst : List String → IO (Except FileProblem String)
  | [] => return .error .missing
  | path :: paths => do
    match ← (IO.FS.readFile path).toBaseIO with
    | .ok text => return .ok text
    | .error e => match fileProblem e with
      | .other cause => return .error (.other cause)
      | _ => readFirst paths

/-- The exit code of an action that has been carried out. -/
def Action.perform : Action → IO UInt32
  | .exit code => return code.toUInt32
  | .print text next => do
    IO.print text
    next.perform
  | .say text next => do
    IO.eprint text
    next.perform
  | .read path next => do
    match ← (IO.FS.readFile path).toBaseIO with
    | .ok text => (next (.ok text)).perform
    | .error e => (next (.error (fileProblem e))).perform
  | .seek path next => do
    let current := (Path.names (← IO.currentDir).toString).filter (!·.isEmpty)
    (next (← readFirst (Path.outward current path))).perform
  | .write path text next => do
    match ← (IO.FS.writeFile path text).toBaseIO with
    | .ok _ => (next none).perform
    | .error e => (next (some (fileProblem e))).perform
  | .send _ _ next => (next (.error "no service can be reached")).perform

/-- The variables of the environment. -/
def environment : IO (List (String × String)) := do
  match ← (IO.FS.readFile "/proc/self/environ").toBaseIO with
  | .error _ => return []
  | .ok text => return (text.splitOn "\x00").filterMap fun entry =>
      match entry.splitOn "=" with
      | name :: value :: more => some (name, "=".intercalate (value :: more))
      | _ => none

end TextPipeline

def main (arguments : List String) : IO UInt32 := do
  (TextPipeline.program arguments (← TextPipeline.environment)).perform
