import TextPipeline.Settings.Basic
import TextPipeline.Settings.Environment

/-!
# Loading settings

The settings are read from the merged layers of the standard settings, the file and the environment.
What is not given keeps its standard value, be it that the lowest layer gives it or that no member
is left that would, and what has no meaning here is passed over.  A section may also be given as the
list of its fields in their order.  The first value of a wrong kind is told, the sections and the
fields of tables being looked at in the order of their names.
-/

namespace TextPipeline

/-- What is wrong with a value. -/
inductive SettingFault where
  | wrongKind (found wanted : String)
  | negative (value : Int) (wanted : String)
  | unknownName (found : String) (known : List String)
deriving DecidableEq, Repr

/-- The message about a value. -/
def SettingFault.message : SettingFault → String
  | .wrongKind found wanted => "invalid type: found " ++ found ++ ", expected " ++ wanted
  | .negative n wanted =>
    "invalid value signed int " ++ backticked (toString n) ++ ", expected " ++ wanted
  | .unknownName found known =>
    "unknown variant: found " ++ backticked found ++ ", expected " ++
      backticked ("one of " ++ ", ".intercalate (known.map backticked))

/-- A fault with the layer and the place of the value. -/
structure MisplacedSetting where
  fault : SettingFault
  origin : Origin
  path : List String
deriving DecidableEq, Repr

namespace MisplacedSetting

/-- The fault as it is seen from outside of a member or an element. -/
def inside (name : String) (e : MisplacedSetting) : MisplacedSetting :=
  { e with path := name :: e.path }

/-- The place of the value as its layer names it. -/
def place (e : MisplacedSetting) : String :=
  match e.origin with
  | .standard | .file => ".".intercalate ("default" :: e.path)
  | .environment => ".".intercalate (e.path.map fun name => name.map Char.toUpper)

/-- The message about the value and its place. -/
def message (e : MisplacedSetting) : String :=
  e.fault.message ++ " for key " ++ quoted e.place

end MisplacedSetting

/-! ## Values -/

/-- How a setting of some type is read. -/
abbrev SettingReader (α : Type) : Type := Setting → Except MisplacedSetting α

namespace SettingReader

/-- The fault that a value is not of the wanted kind. -/
def wrongKind (wanted : String) (s : Setting) : MisplacedSetting :=
  ⟨.wrongKind s.kind wanted, s.origin, []⟩

/-- The setting is a text or a single character. -/
def text : SettingReader String
  | .scalar _ (.text s) => .ok s
  | .scalar _ (.char c) => .ok (String.singleton c)
  | s => .error (wrongKind "a string" s)

/-- The setting is a truth value. -/
def bool : SettingReader Bool
  | .scalar _ (.bool b) => .ok b
  | s => .error (wrongKind "a boolean" s)

/-- The setting is a whole number that is not negative. -/
def natural : SettingReader Nat
  | .scalar _ (.unsigned n) => .ok n
  | .scalar o (.signed n) => if n < 0 then .error ⟨.negative n "u64", o, []⟩ else .ok n.toNat
  | s => .error (wrongKind "u64" s)

/-- The names of the formats of log lines. -/
def formatNames : List String := [LogFormat.pretty, .compact, .json].map LogFormat.name

/-- The setting is the name of a format, which no single character can be.  A table is taken for a
format with content, which no format has. -/
def format : SettingReader LogFormat
  | .scalar o (.text s) => match LogFormat.ofName? s with
    | some f => .ok f
    | none => .error ⟨.unknownName s formatNames, o, []⟩
  | .table o [] => .error (wrongKind "enum" (.table o []))
  | .table _ ((k, v) :: _) => match LogFormat.ofName? k with
    | some _ => .error ((wrongKind "unit" v).inside k)
    | none => .error ⟨.unknownName k formatNames, v.origin, [k]⟩
  | s => .error (wrongKind "enum LogFormat" s)

end SettingReader

/-! ## Sections -/

/-- A field of a section of type `σ`. -/
structure SettingField (σ : Type) where
  name : String
  read : σ → SettingReader σ

namespace SettingField

variable {σ : Type}

/-- A field with a reader of its value and the change that the value makes. -/
def of {α : Type} (name : String) (reader : SettingReader α) (set : σ → α → σ) : SettingField σ :=
  ⟨name, fun s v => (reader v).map (set s)⟩

/-- The section after a member of its table. -/
def addMember (fields : List (SettingField σ)) (s : σ) (member : String × Setting) :
    Except MisplacedSetting σ :=
  match fields.find? (·.name = member.1) with
  | none => .ok s
  | some field => (field.read s member.2).mapError (·.inside member.1)

/-- The section after the elements of its list from the given place on. -/
def addElements (fields : List (SettingField σ)) (place : Nat) (s : σ) (elements : List Setting) :
    Except MisplacedSetting σ :=
  match fields, elements with
  | field :: fields, v :: vs => match field.read s v with
    | .error e => .error (e.inside (toString place))
    | .ok s' => addElements fields (place + 1) s' vs
  | _, _ => .ok s

end SettingField

/-- The section of a given name and fields, which has standard values where none are given. -/
def SettingReader.ofFields {σ : Type} (name : String) (fields : List (SettingField σ))
    (standard : σ) : SettingReader σ
  | .table _ members => members.foldlM (SettingField.addMember fields) standard
  | .list _ elements => SettingField.addElements fields 0 standard elements
  | s => .error (wrongKind ("struct " ++ name) s)

namespace Settings

/-- The section about execution. -/
def executionReader (standard : ExecutionSettings) : SettingReader ExecutionSettings :=
  .ofFields "ExecutionConfig"
    [.of "endpoint" .text fun s v => { s with endpoint := v },
      .of "timeout_secs" .natural fun s v => { s with timeoutSeconds := v }]
    standard

/-- The section about compilation. -/
def compilerReader (standard : CompilerSettings) : SettingReader CompilerSettings :=
  .ofFields "CompilerConfig"
    [.of "default_sample_text" .text fun s v => { s with sampleText := v }]
    standard

/-- The section about logging. -/
def loggingReader (standard : LoggingSettings) : SettingReader LoggingSettings :=
  .ofFields "LoggingConfig"
    [.of "level" .text fun s v => { s with level := v },
      .of "format" .format fun s v => { s with format := v },
      .of "ansi" .bool fun s v => { s with ansi := v }]
    standard

/-- The sections. -/
def fields : List (SettingField Settings) :=
  [⟨"execution", fun s v => (executionReader s.execution v).map fun x => { s with execution := x }⟩,
    ⟨"compiler", fun s v => (compilerReader s.compiler v).map fun x => { s with compiler := x }⟩,
    ⟨"logging", fun s v => (loggingReader s.logging v).map fun x => { s with logging := x }⟩]

/-- The settings that the merged layers give. -/
def ofMembers (members : Named Setting) : Except MisplacedSetting Settings :=
  members.foldlM (SettingField.addMember fields) standard

/-- The layer of settings, which gives every field. -/
def toLayer (s : Settings) : Named Setting :=
  let value (v : Scalar) : Setting := .scalar .standard v
  [("compiler", .table .standard
      [("default_sample_text", value (.text s.compiler.sampleText))]),
    ("execution", .table .standard
      [("endpoint", value (.text s.execution.endpoint)),
        ("timeout_secs", value (.unsigned s.execution.timeoutSeconds))]),
    ("logging", .table .standard
      [("ansi", value (.bool s.logging.ansi)),
        ("format", value (.text s.logging.format.name)),
        ("level", value (.text s.logging.level))])]

/-! ## Errors -/

/-- What was done when settings could not be had. -/
inductive Stage where
  | loading
  | checking
  | logging
deriving DecidableEq, Repr

/-- The message that names the stage in front of a cause. -/
def Stage.explain (stage : Stage) (cause : String) : String :=
  let lead := match stage with
    | .loading => "Failed to load configuration: "
    | .checking => "Invalid configuration: "
    | .logging => "Failed to initialise logging: "
  lead ++ cause

/-- Why settings could not be had. -/
inductive Error where
  /-- The text of the file is malformed. -/
  | malformed
  | misplaced (cause : MisplacedSetting)
  | invalid (cause : Invalid)
deriving DecidableEq, Repr

/-- The message about settings that could not be had. -/
def Error.message : Error → String
  | .malformed => Stage.loading.explain "the file is not TOML"
  | .misplaced cause => Stage.loading.explain cause.message
  | .invalid cause => Stage.checking.explain cause.message

/-- The settings that layers give, the later ones over the earlier ones and all of them over the
standard settings, if these settings can be used. -/
def ofLayers (layers : List (Named Setting)) : Except Error Settings :=
  match ofMembers (layers.foldl Setting.mergeMembers standard.toLayer) with
  | .error cause => .error (.misplaced cause)
  | .ok s => match s.invalid? with
    | some cause => .error (.invalid cause)
    | none => .ok s

/-- The settings of a file, if there is one, and the variables of the environment. -/
def load (file : Option String) (environment : List (String × String)) : Except Error Settings :=
  match fileLayer (file.getD "") with
  | none => .error .malformed
  | some members => ofLayers [members, environmentLayer environment]

/-- The settings of a text alone. -/
def parse (text : String) : Except Error Settings :=
  match fileLayer text with
  | none => .error .malformed
  | some members => ofLayers [members]

end Settings

end TextPipeline
