import TextPipeline.CommandLine.Files

/-!
# Actions

What a program does to the world around it: it prints, reads and writes files, sends a request,
and at last exits.  A program is a tree of such actions, in which the answers of the world decide
how it goes on.  Here an action is carried out on files that are held in memory.
-/

namespace TextPipeline

/-- What a program does, and how it goes on after that. -/
inductive Action where
  | exit (code : Nat)
  | print (text : String) (next : Action)
  /-- Print a text where messages go. -/
  | say (text : String) (next : Action)
  | read (path : String) (next : Except FileProblem String → Action)
  /-- Read the file that a path leads to from the current directory, or else from the innermost of
  the directories around it from which the path leads to a file. -/
  | seek (path : String) (next : Except FileProblem String → Action)
  | write (path text : String) (next : Option FileProblem → Action)
  /-- Send a body to an address, and get the status and the body of the answer. -/
  | send (url body : String) (next : Except String (Nat × String) → Action)

namespace Action

/-- The action that tells of an error and exits. -/
def fail (message : String) : Action :=
  .say ("\nError: " ++ message ++ "\n") (.exit 1)

end Action

/-- The files of a system, and the answer that every request gets. -/
structure World where
  files : FileTree
  reply : Except String (Nat × String)

/-- What is left when a program has exited.  The messages are those besides the lines of a log,
which may stand among them. -/
structure Outcome where
  code : Nat
  output : String
  messages : String
  files : FileTree
deriving DecidableEq, Repr

/-- What is left if a text was written to a device before. -/
def Outcome.after (d : Device) (text : String) (o : Outcome) : Outcome :=
  match d with
  | .null => o
  | .output => { o with output := text ++ o.output }
  | .messages => { o with messages := text ++ o.messages }

/-- What is left when an action has been carried out. -/
def Action.run (w : World) : Action → Outcome
  | .exit code => ⟨code, "", "", w.files⟩
  | .print text next => (next.run w).after .output text
  | .say text next => (next.run w).after .messages text
  | .read path next => (next (w.files.read path)).run w
  | .seek path next => (next (w.files.seek path)).run w
  | .write path text next => match w.files.target path with
    | .ok (.file place) => (next none).run { w with files := w.files.insert place text }
    | .ok (.device d) => ((next none).run w).after d text
    | .error problem => (next (some problem)).run w
  | .send _ _ next => (next w.reply).run w

end TextPipeline
