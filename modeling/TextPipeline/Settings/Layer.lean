import TextPipeline.Text.Quoted
import TextPipeline.Toml.Document

/-!
# Layers of settings

Settings have standard values, and they come from a file and from the environment.  Each of the
three gives a layer, a tree of tables with values at its leaves, and each value knows which layer it
comes from.  Layers are merged table by table; where one of the two has no table, the later layer
wins.
-/

namespace TextPipeline

/-- Where a value comes from. -/
inductive Origin where
  | standard
  | file
  | environment
deriving DecidableEq, Repr

/-- A value that holds no other values. -/
inductive Scalar where
  | text (value : String)
  /-- A single character, which may stand where a text is wanted. -/
  | char (value : Char)
  | bool (value : Bool)
  | unsigned (value : Nat)
  | signed (value : Int)
  | float (value : Extended)
deriving DecidableEq

/-- A value of a layer. -/
inductive Setting where
  | scalar (origin : Origin) (value : Scalar)
  | list (origin : Origin) (elements : List Setting)
  | table (origin : Origin) (members : List (String × Setting))

namespace Setting

/-- Where a value comes from. -/
def origin : Setting → Origin
  | .scalar o _ => o
  | .list o _ => o
  | .table o _ => o

/-- The kind of a value as a message names it. -/
def kind : Setting → String
  | .scalar _ (.text s) => "string " ++ quoted s
  | .scalar _ (.char c) => "string " ++ quoted (String.singleton c)
  | .scalar _ (.bool b) => "bool " ++ toString b
  | .scalar _ (.unsigned n) => "unsigned int " ++ backticked (toString n)
  | .scalar _ (.signed n) => "signed int " ++ backticked (toString n)
  | .scalar _ (.float x) => "float " ++ backticked x.text
  | .list .. => "sequence"
  | .table .. => "map"

mutual

/-- The value that a later layer makes of a value. -/
def merge : Setting → Setting → Setting
  | .table _ ms, .table o later => .table o (mergeMembers ms later)
  | _, later => later

/-- The members that a later layer makes of the members of a table. -/
def mergeMembers (ms : List (String × Setting)) :
    List (String × Setting) → List (String × Setting)
  | [] => ms
  | (k, later) :: rest =>
    let value := match Named.get? k ms with
      | some earlier => merge earlier later
      | none => later
    mergeMembers (Named.insert k value ms) rest

end

/-- The name of a member that is taken in place of its whole table. -/
def contentName : String := "___figment_value_value"

/-- The name of a member that a table of a file must not have. -/
def reservedName : String := "___figment_value_id"

/-- The setting that the members of a table of a file make.  A table with a content is that
content, whatever else it holds. -/
def ofTable (members : List (String × Setting)) : Option Setting :=
  if Named.contains reservedName members then none
  else some ((Named.get? contentName members).getD (.table .file members))

mutual

/-- The value of a file as a setting, unless a name inside it is reserved.  A moment is a table
with its text under a name of its own. -/
def ofToml : Toml → Option Setting
  | .text s => some (.scalar .file (.text s))
  | .integer n => some (.scalar .file (.signed n))
  | .float x => some (.scalar .file (.float x))
  | .bool b => some (.scalar .file (.bool b))
  | .moment t => some (.table .file [("$__toml_private_datetime", .scalar .file (.text t))])
  | .array vs => (ofElements vs).map (.list .file)
  | .table _ ms => (ofMembers ms).bind ofTable
  | .tables ts => (ofElements ts).map (.list .file)

/-- The elements of an array of a file as settings. -/
def ofElements : List Toml → Option (List Setting)
  | [] => some []
  | v :: vs => do return (← ofToml v) :: (← ofElements vs)

/-- The members of a table of a file as settings. -/
def ofMembers : List (String × Toml) → Option (List (String × Setting))
  | [] => some []
  | (k, v) :: ms => do return (k, ← ofToml v) :: (← ofMembers ms)

end

end Setting

/-- The layer of a file, unless the text of the file is malformed.  At the top of the file every
name is a name like any other. -/
def fileLayer (text : String) : Option (Named Setting) :=
  (Toml.parse text).bind Setting.ofMembers

end TextPipeline
