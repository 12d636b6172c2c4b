import TextPipeline.Toml.Basic
import TextPipeline.Toml.Number

/-!
# TOML texts

A text is a list of lines that open a table under a header, open one more table of an array under
a header, or give a value to a key.  The lines build up one table; a line that gives a name twice
or adds to a table that is closed is refused.
-/

namespace TextPipeline

namespace Toml

/-! ## Blanks -/

/-- The text after the spaces at its front. -/
def afterSpaces (cs : List Char) : List Char :=
  cs.dropWhile TomlText.isSpace

/-- The text after spaces, ends of lines and comments, the front being inside a comment if
`inComment` says so. -/
def afterBlanks (inComment : Bool) : List Char → List Char
  | '\r' :: '\n' :: rest => afterBlanks false rest
  | c :: rest =>
    if c = '\n' then afterBlanks false rest
    else if inComment then
      if TomlText.isPlain c then afterBlanks true rest else c :: rest
    else if TomlText.isSpace c then afterBlanks false rest
    else if c = '#' then afterBlanks true rest
    else c :: rest
  | [] => []

/-- The end of a line, before which spaces and a comment may stand. -/
def lineEnd : Scan Unit := fun cs =>
  let cs := match afterSpaces cs with
    | '#' :: rest => rest.dropWhile TomlText.isPlain
    | rest => rest
  match cs with
  | [] => some ((), [])
  | cs => (TomlText.afterNewline cs).map fun rest => ((), rest)

/-! ## Keys -/

/-- The characters of names without quotes. -/
def isBare (c : Char) : Bool :=
  c.isAlphanum || c = '_' || c = '-'

/-- A name, with or without quotes. -/
def name : Scan String := fun cs =>
  match cs with
  | [] => none
  | c :: _ =>
    if c = '"' || c = '\'' then
      (TomlText.line cs).map fun (chars, rest) => (String.ofList chars, rest)
    else if isBare c then some (String.ofList (cs.takeWhile isBare), cs.dropWhile isBare)
    else none

/-- The names of a key, with dots between them and spaces around them.  The first argument bounds
the number of names. -/
def namesUpTo : Nat → Scan (List String)
  | 0, _ => none
  | n + 1, cs => match name (afterSpaces cs) with
    | none => none
    | some (first, rest) => match afterSpaces rest with
      | '.' :: rest => (namesUpTo n rest).map fun (names, after) => (first :: names, after)
      | rest => some ([first], rest)

/-- The greatest number of names in a key, and of arrays and tables that may be open at one
place. -/
def maxDepth : Nat := 79

/-- A key, with the spaces around it. -/
def key : Scan (List String) :=
  namesUpTo maxDepth

/-! ## Tables -/

/-- The members of a table after `edit` has changed the table at a path inside it.  Tables that
are missing on the way are made. -/
def within (byDots : Bool) (edit : TableForm → Named Toml → Option (Named Toml)) :
    List String → TableForm → Named Toml → Option (Named Toml)
  | [], form, members => edit form members
  | k :: path, _, members => match Named.get? k members with
    | none =>
      let form := if byDots then .dotted else .implied
      (within byDots edit path form []).map fun inner => Named.insert k (.table form inner) members
    | some (.table form inner) =>
      if if byDots then form.takesDots else form.takesHeaders then
        (within byDots edit path form inner).map fun inner' =>
          Named.insert k (.table form inner') members
      else none
    | some (.tables elements) => match elements.getLast? with
      | some (.table form inner) =>
        (within byDots edit path form inner).map fun inner' =>
          Named.insert k (.tables (elements.dropLast ++ [.table form inner'])) members
      | _ => none
    | some _ => none

/-- The members of a table with a new value under a key.  A key with dots may end only in a table
that was itself given by dots. -/
def assign (key : List String) (value : Toml) (form : TableForm) (members : Named Toml) :
    Option (Named Toml) :=
  let path := key.dropLast
  let add (last : String) (form : TableForm) (ms : Named Toml) : Option (Named Toml) :=
    if (form = .dotted) = path.isEmpty then none
    else if Named.contains last ms then none
    else some (Named.insert last value ms)
  match key.getLast? with
  | none => none
  | some last => within true (add last) path form members

/-! ## Values -/

/-- A value that holds no other values. -/
def scalar : Scan Toml := fun cs =>
  match cs with
  | 't' :: 'r' :: 'u' :: 'e' :: rest => some (.bool true, rest)
  | 'f' :: 'a' :: 'l' :: 's' :: 'e' :: rest => some (.bool false, rest)
  | cs => match TomlMoment.moment cs with
    | some (chars, rest) => some (.moment (String.ofList chars), rest)
    | none => match TomlNumber.float cs with
      | some (x, rest) => some (.float x, rest)
      | none => (TomlNumber.integer cs).map fun (n, rest) => (.integer n, rest)

/-- A key with its value, given how the value is scanned. -/
def pair (value : Scan Toml) : Scan (List String × Toml) := fun cs => do
  let (key, cs) ← key cs
  let (_, cs) ← Scan.char '=' cs
  let (v, cs) ← value (afterSpaces cs)
  return ((key, v), cs)

/-- The table that keys and values between braces make. -/
def inlineTable (pairs : List (List String × Toml)) : Option Toml :=
  let members := pairs.foldlM (fun ms (key, v) => assign key v .inline ms) []
  members.map (.table .inline)

/-- A value, given how the values inside arrays and tables are scanned unless none may be
opened. -/
def valueWith (inner : Option (Scan Toml)) : Scan Toml := fun cs =>
  match cs with
  | '[' :: rest => match inner with
    | none => none
    | some value =>
      (Scan.items value (afterBlanks false) ']' true rest).map fun (vs, after) =>
        (.array vs, after)
  | '\x7b' :: rest => match inner with
    | none => none
    | some value => match Scan.items (pair value) afterSpaces '\x7d' false rest with
      | none => none
      | some (pairs, after) => (inlineTable pairs).map fun t => (t, after)
  | c :: _ =>
    if c = '"' || c = '\'' then
      (TomlText.any cs).map fun (chars, rest) => (.text (String.ofList chars), rest)
    else scalar cs
  | [] => none

/-- A value in which the given number of arrays and tables may be open at one place. -/
def value : Nat → Scan Toml
  | 0 => valueWith none
  | room + 1 => valueWith (some (value room))

/-! ## Lines -/

/-- What a line does. -/
inductive Line where
  | empty
  | table (path : List String)
  | element (path : List String)
  | assign (key : List String) (value : Toml)

/-- A line without the spaces at its front. -/
def line : Scan Line := fun cs =>
  match cs with
  | '[' :: '[' :: rest => do
    let (path, cs) ← key rest
    let (_, cs) ← Scan.word [']', ']'] cs
    let (_, cs) ← lineEnd cs
    return (.element path, cs)
  | '[' :: rest => do
    let (path, cs) ← key rest
    let (_, cs) ← Scan.char ']' cs
    let (_, cs) ← lineEnd cs
    return (.table path, cs)
  | cs => match lineEnd cs with
    | some (_, rest) => some (.empty, rest)
    | none => do
      let ((key, v), cs) ← pair (value maxDepth) cs
      let (_, cs) ← lineEnd cs
      return (.assign key v, cs)

/-- The lines of a text.  The first argument bounds their number. -/
def linesUpTo : Nat → List Char → Option (List Line)
  | 0, _ => none
  | n + 1, cs => match afterSpaces cs with
    | [] => some []
    | cs => match line cs with
      | none => none
      | some (l, rest) => (linesUpTo n rest).map (l :: ·)

/-- The lines of a text, of which there are no more than characters.  A byte order mark at the
front is dropped. -/
def lines (cs : List Char) : Option (List Line) :=
  let cs := match cs with
    | '\ufeff' :: rest => rest
    | cs => cs
  linesUpTo (cs.length + 1) cs

/-- The members of a table with a table that is opened under a name by a header. -/
def openTable (name : String) (_ : TableForm) (members : Named Toml) : Option (Named Toml) :=
  match Named.get? name members with
  | none => some (Named.insert name (.table .header []) members)
  | some (.table .implied inner) => some (Named.insert name (.table .header inner) members)
  | some _ => none

/-- The members of a table with one more table in the array under a name. -/
def openElement (name : String) (_ : TableForm) (members : Named Toml) : Option (Named Toml) :=
  match Named.get? name members with
  | none => some (Named.insert name (.tables [.table .header []]) members)
  | some (.tables elements) =>
    some (Named.insert name (.tables (elements ++ [.table .header []])) members)
  | some _ => none

/-- The members of the whole table with an edit of a table that a header names. -/
def underHeader (edit : String → TableForm → Named Toml → Option (Named Toml))
    (path : List String) (members : Named Toml) : Option (Named Toml) :=
  match path.getLast? with
  | none => none
  | some last => within false (edit last) path.dropLast .header members

/-- The members of the whole table and the path of the table that is open, after a line. -/
def addLine (state : Named Toml × List String) (l : Line) : Option (Named Toml × List String) :=
  let (members, current) := state
  match l with
  | .empty => some state
  | .table path => (underHeader openTable path members).map fun ms => (ms, path)
  | .element path => (underHeader openElement path members).map fun ms => (ms, path)
  | .assign key v =>
    (within false (assign key v) current .header members).map fun ms => (ms, current)

/-- The members of the table that a text stands for. -/
def parse (text : String) : Option (Named Toml) := do
  let ls ← lines text.toList
  let (members, _) ← ls.foldlM addLine ([], [])
  return members

end Toml

end TextPipeline
