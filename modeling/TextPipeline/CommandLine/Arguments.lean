/-!
# Arguments

The arguments of the command line name a command, with the files it works on.  An option has a
short and a long name, and its value follows in the same argument or in the next one.  What comes
after two dashes is no option.
-/

namespace TextPipeline

/-- What the program is asked to do. -/
inductive Request where
  | compile (graph : String) (output : Option String)
  | validate (graph : String)
  | kinds
  | run (graph : String)
deriving DecidableEq, Repr

/-- A request, and the file from which the settings are read. -/
structure Invocation where
  config : String
  request : Request
deriving DecidableEq, Repr

/-- Why there is nothing to do. -/
inductive NoRequest where
  /-- The text about the program, or about one of its commands, is asked for. -/
  | help (command : Option String)
  | version
  /-- The arguments are not understood. -/
  | misuse
deriving DecidableEq, Repr

namespace Arguments

/-- An option that has a value. -/
structure ValueOption where
  short : Char
  long : String

/-- What an argument is by itself. -/
inductive Part where
  | word (text : String)
  | value (text : String)
  /-- An option whose value is the next argument. -/
  | awaitsValue
  | help
  | version
  | dashes
  | unknown
deriving DecidableEq, Repr

/-- What an argument is, where the given option may stand. -/
def part (option : Option ValueOption) (argument : String) : Part :=
  match argument.toList with
  | ['-'] => .word argument
  | ['-', '-'] => .dashes
  | '-' :: '-' :: cs =>
    let name := String.ofList (cs.takeWhile (· ≠ '='))
    match option.any (·.long = name), cs.dropWhile (· ≠ '=') with
    | true, [] => .awaitsValue
    | true, _ :: value => .value (String.ofList value)
    | false, [] => if name = "help" then .help else if name = "version" then .version else .unknown
    | false, _ => .unknown
  | '-' :: c :: cs =>
    match option.any (·.short = c), cs with
    | true, [] => .awaitsValue
    | true, '=' :: value => .value (String.ofList value)
    | true, value => .value (String.ofList value)
    | false, _ => if c = 'h' then .help else if c = 'V' then .version else .unknown
  | _ => .word argument

/-- Whether an argument begins with a dash and more, and so cannot be the value of the option
before it. -/
def isDashed (argument : String) : Bool :=
  argument ≠ "-" && "-".toList.isPrefixOf argument.toList

/-- The arguments of a command read so far. -/
structure Draft where
  words : List String
  output : Option String
  awaiting : Bool
  afterDashes : Bool

/-- How many files a command works on, and the option that it has. -/
structure CommandForm where
  words : Nat
  option : Option ValueOption

/-- The forms of the commands. -/
def form? : String → Option CommandForm
  | "compile" => some ⟨1, some ⟨'o', "output"⟩⟩
  | "validate" => some ⟨1, none⟩
  | "kinds" => some ⟨0, none⟩
  | "run" => some ⟨1, none⟩
  | _ => none

/-- The draft with one more word, unless the command has all its words or the word is empty. -/
def Draft.addWord (form : CommandForm) (d : Draft) (word : String) : Except NoRequest Draft :=
  if form.words ≤ d.words.length ∨ word.isEmpty then .error .misuse
  else .ok { d with words := d.words ++ [word] }

/-- The draft with the value of the option, which must be given once. -/
def Draft.setOutput (d : Draft) (value : String) : Except NoRequest Draft :=
  if d.output.isSome ∨ value.isEmpty then .error .misuse
  else .ok { d with output := some value, awaiting := false }

/-- The draft after one more argument of a command. -/
def Draft.add (command : String) (form : CommandForm) (d : Draft) (argument : String) :
    Except NoRequest Draft :=
  if d.awaiting then
    if isDashed argument then .error .misuse else d.setOutput argument
  else if d.afterDashes then d.addWord form argument
  else match part form.option argument with
    | .word text => d.addWord form text
    | .value text => d.setOutput text
    | .awaitsValue => .ok { d with awaiting := true }
    | .help => .error (.help (some command))
    | .dashes => .ok { d with afterDashes := true }
    | .version | .unknown => .error .misuse

/-- The request that a command and its draft make. -/
def Draft.finish (command : String) (d : Draft) : Except NoRequest Request :=
  if d.awaiting then .error .misuse
  else match command, d.words with
    | "compile", [graph] => .ok (.compile graph d.output)
    | "validate", [graph] => .ok (.validate graph)
    | "kinds", [] => .ok .kinds
    | "run", [graph] => .ok (.run graph)
    | _, _ => .error .misuse

/-- The request that a command with its arguments makes. -/
def request (command : String) (arguments : List String) : Except NoRequest Request :=
  match form? command, arguments with
  | some form, _ => do
    let d ← arguments.foldlM (Draft.add command form) ⟨[], none, false, false⟩
    d.finish command
  | none, [] => if command = "help" then .error (.help none) else .error .misuse
  | none, [topic] =>
    if command = "help" ∧ (topic = "help" ∨ (form? topic).isSome) then .error (.help (some topic))
    else .error .misuse
  | none, _ => .error .misuse

/-- The file of the settings unless another one is named. -/
def defaultConfig : String := "nlpflow.toml"

/-- The option that names the file of the settings. -/
def configOption : ValueOption := ⟨'c', "config"⟩

/-- What is done for a command with its arguments when the value before them is at fault: only
help that is asked for is still given. -/
def helpOnly : List String → NoRequest
  | [] => .misuse
  | argument :: rest => match part (some configOption) argument with
    | .word command => match request command rest with
      | .error (.help topic) => .help topic
      | _ => .misuse
    | _ => .misuse

/-- The invocation that arguments make, after the option for the settings has been read.  The
option is given once.  A value in an argument of its own is judged after the command has been
read. -/
def invocation (config : Option String) (awaiting : Bool) :
    List String → Except NoRequest Invocation
  | [] => .error .misuse
  | argument :: rest =>
    let isRefused (value : String) : Bool := config.isSome || value.isEmpty
    if awaiting then
      if isDashed argument then .error .misuse
      else if isRefused argument then .error (helpOnly rest)
      else invocation (some argument) false rest
    else match part (some configOption) argument with
      | .word command =>
        (request command rest).map fun r => ⟨config.getD defaultConfig, r⟩
      | .value text => if isRefused text then .error .misuse else invocation (some text) false rest
      | .awaitsValue => invocation config true rest
      | .help => .error (.help none)
      | .version => .error .version
      | .dashes | .unknown => .error .misuse

end Arguments

/-- The invocation that the arguments of the command line make. -/
def Invocation.parse (arguments : List String) : Except NoRequest Invocation :=
  Arguments.invocation none false arguments

/-! ## Texts about the program -/

namespace Usage

/-- The lines, each with a line feed at its end. -/
def page (lines : List String) : String :=
  String.join (lines.map (· ++ "\n"))

/-- The text about the program. -/
def program : String :=
  page ["Graph validation and script compilation engine for node-based NLP pipelines", "",
    "Usage: nlpflow-cli [OPTIONS] <COMMAND>", "",
    "Commands:",
    "  compile   Compile a pipeline JSON file into a Python script",
    "  validate  Replay every edge of a pipeline through the connection validator",
    "  kinds     List the known operation kinds",
    "  run       Compile a pipeline and submit it to the execution service",
    "  help      Print this message or the help of the given subcommand(s)", "",
    "Options:",
    "  -c, --config <CONFIG>  Path to a TOML configuration file [default: nlpflow.toml]",
    "  -h, --help             Print help",
    "  -V, --version          Print version"]

/-- The text about a command. -/
def command : String → String
  | "compile" => page ["Compile a pipeline JSON file into a Python script", "",
    "Usage: nlpflow-cli compile [OPTIONS] <GRAPH_PATH>", "",
    "Arguments:", "  <GRAPH_PATH>  Path to the pipeline JSON file", "",
    "Options:", "  -o, --output <OUTPUT>  Write the script here instead of stdout",
    "  -h, --help             Print help"]
  | "validate" => page ["Replay every edge of a pipeline through the connection validator", "",
    "Usage: nlpflow-cli validate <GRAPH_PATH>", "",
    "Arguments:", "  <GRAPH_PATH>  Path to the pipeline JSON file", "",
    "Options:", "  -h, --help  Print help"]
  | "kinds" => page ["List the known operation kinds", "",
    "Usage: nlpflow-cli kinds", "",
    "Options:", "  -h, --help  Print help"]
  | "run" => page ["Compile a pipeline and submit it to the execution service", "",
    "Usage: nlpflow-cli run <GRAPH_PATH>", "",
    "Arguments:", "  <GRAPH_PATH>  Path to the pipeline JSON file", "",
    "Options:", "  -h, --help  Print help"]
  | "help" => page ["Print this message or the help of the given subcommand(s)", "",
    "Usage: nlpflow-cli help [COMMAND]...", "",
    "Arguments:", "  [COMMAND]...  Print help for the subcommand(s)"]
  | _ => program

/-- The name and the version of the program. -/
def version : String := "nlpflow 0.3.2\n"

/-- What is said about arguments that are not understood. -/
def hint : String :=
  page ["error: the arguments are not understood", "",
    "Usage: nlpflow-cli [OPTIONS] <COMMAND>", "",
    "For more information, try '--help'."]

end Usage

end TextPipeline
