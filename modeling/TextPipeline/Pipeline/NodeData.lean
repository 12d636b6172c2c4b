import TextPipeline.Json.Value

/-!
# Data of nodes

A node carries a JSON object.  The members `label`, `text` and `description` are kept apart when
they hold texts; all other members, among them a label that is no text, are kept as they are.
-/

namespace TextPipeline

/-- The data of a node: three texts and the other members, sorted by name. -/
structure NodeData where
  label : Option String
  text : Option String
  description : Option String
  extra : Named Json
deriving DecidableEq, Inhabited

namespace NodeData

/-- The data without any member. -/
def empty : NodeData := ⟨none, none, none, []⟩

/-- The data with a text. -/
def ofText (text : String) : NodeData := { empty with text := some text }

/-- The data with a label. -/
def ofLabel (label : String) : NodeData := { empty with label := some label }

/-- The text under a name, if there is one, and the members that remain without it. -/
def takeText (name : String) (members : Named Json) : Option String × Named Json :=
  match members.get? name with
  | some (.str s) => (some s, members.erase name)
  | _ => (none, members)

/-- The data that the members of an object make. -/
def ofMembers (members : Named Json) : NodeData :=
  let (label, members) := takeText "label" members
  let (text, members) := takeText "text" members
  let (description, members) := takeText "description" members
  ⟨label, text, description, members⟩

/-- The member of a name, if it holds a text. -/
def textMember (name : String) (value : Option String) : Named Json :=
  match value with
  | some s => [(name, .str s)]
  | none => []

/-- The members of the data in the order in which they are written. -/
def toMembers (data : NodeData) : Named Json :=
  textMember "label" data.label ++ textMember "text" data.text ++
    textMember "description" data.description ++ data.extra

/-- The data with a text under a name, in place of what was there. -/
def setField (data : NodeData) (field value : String) : NodeData :=
  if field = "label" then
    { data with label := some value, extra := data.extra.erase field }
  else if field = "text" then
    { data with text := some value, extra := data.extra.erase field }
  else if field = "description" then
    { data with description := some value, extra := data.extra.erase field }
  else { data with extra := data.extra.insert field (.str value) }

end NodeData

end TextPipeline
