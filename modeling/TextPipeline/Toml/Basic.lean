import TextPipeline.Decimal.Extended
import TextPipeline.Named

/-!
# TOML values

The values of a TOML text.  A table knows how it was given, since that decides whether later lines
of the text may still add to it.
-/

namespace TextPipeline

/-- How a table was given. -/
inductive TableForm where
  /-- By braces, on one line. -/
  | inline
  /-- By a header of its own. -/
  | header
  /-- By the header of a table inside it. -/
  | implied
  /-- By a key with dots. -/
  | dotted
deriving DecidableEq, Repr

/-- A value of a TOML text. -/
inductive Toml where
  | text (value : String)
  | integer (value : Int)
  | float (value : Extended)
  | bool (value : Bool)
  /-- A date, a time of day, or both. -/
  | moment (text : String)
  | array (elements : List Toml)
  | table (form : TableForm) (members : List (String × Toml))
  /-- Tables that were given one by one under headers of the same name. -/
  | tables (elements : List Toml)
deriving Inhabited

/-- Whether keys with dots may add to a table that was given in some way. -/
def TableForm.takesDots : TableForm → Bool
  | .implied | .dotted => true
  | .inline | .header => false

/-- Whether headers may lead into a table that was given in some way. -/
def TableForm.takesHeaders : TableForm → Bool
  | .inline => false
  | .header | .implied | .dotted => true

end TextPipeline
