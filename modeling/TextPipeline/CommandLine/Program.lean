import TextPipeline.CommandLine.Action
import TextPipeline.CommandLine.Arguments
import TextPipeline.Execution
import TextPipeline.Pipeline.Inspection
import TextPipeline.Pipeline.Load
import TextPipeline.Settings.Load

/-!
# The program

The program compiles a pipeline to a script, inspects a pipeline, lists the kinds of operations,
or has a pipeline executed.  The settings are read before anything else is done, and the first
error ends the program.
-/

namespace TextPipeline

/-- The graph of a file, given what has been found in it. -/
def Graph.ofContent (path : String) : Except FileProblem String → Except LoadError Graph
  | .error problem => .error (.file ("Could not read '" ++ path ++ "': " ++ problem.message))
  | .ok text => Graph.parse text

namespace Program

/-- The rest of the program after the graph of a file has been loaded. -/
def withGraph (path : String) (next : Graph → Action) : Action :=
  .read path fun found => match Graph.ofContent path found with
    | .error cause => .fail ("Failed to load pipeline '" ++ path ++ "': " ++ cause.message)
    | .ok g => next g

/-- The compiler that the settings ask for. -/
def compiler (s : Settings) : Compiler :=
  Compiler.ofSetups [.sampleText s.compiler.sampleText]

/-- Compile the graph of a file, and print the script or write it to another file. -/
def compile (s : Settings) (path : String) (output : Option String) : Action :=
  withGraph path fun g =>
    let script := (compiler s).compile g
    match output with
    | none => .print script.text (.exit 0)
    | some target => .write target script.text fun
      | some problem => .fail ("Failed to write '" ++ target ++ "': " ++ problem.message)
      | none =>
        let summary := "Compiled " ++ toString g.nodes.length ++ " nodes (" ++
          toString script.order.length ++ " visited) into '" ++ target ++ "'\n"
        .say summary (.exit 0)

/-- Print a line for each finding, and fail if some finding is a problem. -/
def report (findings : List Finding) (g : Graph) : Action :=
  let text := String.join (findings.map fun f => f.line ++ "\n")
  let problems := findings.countP Finding.isProblem
  if problems > 0 then .print text (.fail (toString problems ++ " problem(s) found"))
  else
    let summary := "Pipeline is valid: " ++ toString g.nodes.length ++ " nodes, " ++
      toString g.edges.length ++ " edges\n"
    .print (text ++ summary) (.exit 0)

/-- Inspect the document of a file. -/
def validate (path : String) : Action :=
  .read path fun
    | .error problem => .fail ("Failed to read pipeline '" ++ path ++ "': " ++ problem.message)
    | .ok text => match Document.parse text with
      | .error fault => .fail (LoadError.unreadable fault).message
      | .ok d =>
        let (findings, g) := Inspection.document d
        report findings g

/-- The line about a kind of operations. -/
def kindLine (kind : OperationKind) : String :=
  let gap := List.replicate (24 - kind.identifier.length) ' '
  let mark := if kind.isInput then " (input)" else ""
  kind.identifier ++ String.ofList gap ++ " " ++ kind.title ++ mark ++ "\n"

/-- List the kinds of operations. -/
def kinds : Action :=
  .print (String.join (OperationKind.all.map kindLine)) (.exit 0)

/-- Have the graph of a file executed, and print the output. -/
def execute (s : Settings) (path : String) : Action :=
  withGraph path fun g =>
    let script := (compiler s).compile g
    let url := Execution.url s.execution.endpoint
    .print ("Submitting script to " ++ url ++ "...\n") <|
      .send url ((Execution.request script.text).text .compact) fun reply =>
        let result : Except ExecutionError String := match reply with
          | .error cause => .error (.transport cause)
          | .ok (status, body) => Execution.interpret status body
        match result with
        | .error cause => .fail cause.userMessage
        | .ok output => .print ("\nOutput:\n" ++ output ++ "\n") (.exit 0)

/-- Do what is asked for, with the given settings. -/
def perform (s : Settings) : Request → Action
  | .compile graph output => compile s graph output
  | .validate graph => validate graph
  | .kinds => kinds
  | .run graph => execute s graph

/-- The rest of the program after the settings have been read from the environment and from a
file, unless no file is found. -/
def withSettings (path : String) (environment : List (String × String))
    (next : Settings → Action) : Action :=
  .seek path fun
    | .error (.other cause) => .fail (Settings.Stage.loading.explain cause)
    | found => match Settings.load found.toOption environment with
      | .error cause => .fail cause.message
      | .ok s => next s

end Program

/-- What the program does with the given arguments and variables of the environment. -/
def program (arguments : List String) (environment : List (String × String)) : Action :=
  match Invocation.parse arguments with
  | .error (.help none) => .print Usage.program (.exit 0)
  | .error (.help (some command)) => .print (Usage.command command) (.exit 0)
  | .error .version => .print Usage.version (.exit 0)
  | .error .misuse => .say Usage.hint (.exit 2)
  | .ok i => Program.withSettings i.config environment fun s => Program.perform s i.request

end TextPipeline
