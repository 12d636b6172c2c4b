import TextPipeline.Named
import TextPipeline.Text.Blank

/-!
# Files

Directories lie in one another and hold files and devices.  A path is a list of names divided by
slashes.  It leads from the root if a slash begins it, and from the current directory otherwise,
and each name but the last one has to lead to a directory.  Here the directories are held in
memory.
-/

namespace TextPipeline

/-- Why a file is not read or written. -/
inductive FileProblem where
  | missing
  | notDirectory
  | isDirectory
  | nameTooLong
  | other (cause : String)
deriving DecidableEq, Repr

/-- The message about a file that is not read or written. -/
def FileProblem.message : FileProblem → String
  | .missing => "No such file or directory (os error 2)"
  | .notDirectory => "Not a directory (os error 20)"
  | .isDirectory => "Is a directory (os error 21)"
  | .nameTooLong => "File name too long (os error 36)"
  | .other cause => cause

/-! ## Paths -/

namespace Path

/-- The greatest number of bytes of a name. -/
def maxNameBytes : Nat := 255

/-- The greatest number of bytes of a path. -/
def maxBytes : Nat := 4095

/-- The parts of a text between the slashes. -/
def split : List Char → List (List Char)
  | [] => [[]]
  | '/' :: rest => [] :: split rest
  | c :: rest => match split rest with
    | [] => [[c]]
    | first :: more => (c :: first) :: more

/-- The names of a path, which are empty where slashes stand side by side or at an end. -/
def names (path : String) : List String :=
  (split path.toList).map String.ofList

/-- The names of a path to something that is written.  A slash at the end asks for a directory, so
that the path means the directory which the last name lies in. -/
def namesToWrite (path : String) : List String :=
  let all := names path
  let named := dropEndWhile String.isEmpty all
  if named.length < all.length then named.dropLast ++ ["."] else all

end Path

/-- Where something lies: the names that lead there from the root. -/
abbrev Place : Type := List String

namespace Path

/-- The path from the root that leads where a path leads from a place. -/
def join (place : Place) (path : String) : String :=
  String.join (place.map ("/" ++ ·)) ++ "/" ++ path

/-- A place and the places around it, the innermost first. -/
def around : Place → List Place
  | [] => [[]]
  | name :: names => (around names).map (name :: ·) ++ [[]]

/-- What a path may mean that is followed from a place or else from one of the places around it.  A
path from the root means the same everywhere. -/
def outward (place : Place) (path : String) : List String :=
  if "/".toList.isPrefixOf path.toList then [path]
  else (around place).map (join · path)

end Path

/-! ## Directories in memory -/

/-- What takes texts without being a file. -/
inductive Device where
  /-- A text that is written here is gone. -/
  | null
  /-- The output of the program. -/
  | output
  /-- The messages of the program. -/
  | messages
deriving DecidableEq, Repr

/-- What may lie in a directory. -/
inductive Entry where
  | file (text : String)
  /-- A file whose bytes make no text. -/
  | binary
  | directory
  | device (device : Device)
deriving DecidableEq, Repr

/-- What can be written to. -/
inductive Target where
  | file (place : Place)
  | device (device : Device)
deriving DecidableEq, Repr

/-- All directories with what lies in them, and the current one. -/
structure FileTree where
  entries : List (Place × Entry)
  current : Place
deriving DecidableEq, Repr

namespace FileTree

/-- What lies at a place.  The root is a directory. -/
def get? (t : FileTree) (place : Place) : Option Entry :=
  if place.isEmpty then some .directory else t.entries.lookup place

/-- The tree with a file at a place. -/
def insert (t : FileTree) (place : Place) (text : String) : FileTree :=
  { t with entries := (place, .file text) :: t.entries.filter (·.1 ≠ place) }

/-- The place to which a name leads from another place.  Nothing needs to lie there yet. -/
def step (t : FileTree) (place : Place) (name : String) : Except FileProblem Place :=
  match t.get? place with
  | none => .error .missing
  | some .directory =>
    if name.isEmpty ∨ name = "." then .ok place
    else if name = ".." then .ok place.dropLast
    else if Path.maxNameBytes < name.utf8ByteSize then .error .nameTooLong
    else .ok (place ++ [name])
  | some _ => .error .notDirectory

/-- The place to which the names of a path lead. -/
def locate (t : FileTree) (path : String) (names : List String) : Except FileProblem Place :=
  if path.isEmpty then .error .missing
  else if Path.maxBytes < path.utf8ByteSize then .error .nameTooLong
  else names.foldlM t.step (if "/".toList.isPrefixOf path.toList then [] else t.current)

/-- The text of a file.  A device has none. -/
def read (t : FileTree) (path : String) : Except FileProblem String := do
  let place ← t.locate path (Path.names path)
  match t.get? place with
  | none => throw .missing
  | some .directory => throw .isDirectory
  | some (.file text) => return text
  | some .binary => throw (.other "stream did not contain valid UTF-8")
  | some (.device _) => return ""

/-- Whether a path leads to a file, whatever its bytes are. -/
def isFile (t : FileTree) (path : String) : Bool :=
  match t.locate path (Path.names path) with
  | .error _ => false
  | .ok place => match t.get? place with
    | some (.file _) | some .binary => true
    | _ => false

/-- The text of the file that a path leads to, which is sought from the current directory
outward. -/
def seek (t : FileTree) (path : String) : Except FileProblem String :=
  match (Path.outward t.current path).find? t.isFile with
  | some found => t.read found
  | none => .error .missing

/-- What a path leads to for writing. -/
def target (t : FileTree) (path : String) : Except FileProblem Target := do
  let place ← t.locate path (Path.namesToWrite path)
  match t.get? place with
  | some .directory => throw .isDirectory
  | some (.device d) => return .device d
  | some (.file _) | some .binary | none => return .file place

/-- The directories at the root of a system. -/
def systemDirectories : List String :=
  ["bin", "boot", "dev", "etc", "home", "lib", "media", "mnt", "opt", "proc", "root", "run",
    "sbin", "srv", "sys", "tmp", "usr", "var"]

/-- The devices of a system. -/
def systemDevices : List (String × Device) :=
  [("null", .null), ("stdin", .null), ("stdout", .output), ("stderr", .messages)]

/-- The current directory of a program that works in a directory of its own. -/
def workingDirectory : Place := ["tmp", "work"]

/-- A system with some files in the current directory, which holds nothing else. -/
def ofFiles (files : Named String) : FileTree :=
  let directories := (workingDirectory :: systemDirectories.map ([·])).map ((·, Entry.directory))
  let devices := systemDevices.map fun (name, d) => (["dev", name], Entry.device d)
  files.foldl (fun t (name, text) => t.insert (workingDirectory ++ [name]) text)
    ⟨directories ++ devices, workingDirectory⟩

/-- A file is read by each path that leads to it. -/
example :
  ["a", ".//a", "../work/a", "/tmp/work/a"].all fun path =>
    ((ofFiles [("a", "text")]).read path).toOption = some "text"
  := by
  decide +kernel

/-- A directory is no file, a file is no directory, and nothing lies where no directory is. -/
example :
  [".", "..", "a/", "a/b", "b/a"].map (fun path => match (ofFiles [("a", "text")]).read path with
    | .ok _ => none
    | .error problem => some problem) =
  [some .isDirectory, some .isDirectory, some .notDirectory, some .notDirectory, some .missing]
  := by
  decide +kernel

/-- A file is sought in the directories around the current one, and the innermost file is taken. -/
example :
  let files := ((ofFiles [("a", "inner")]).insert ["tmp", "a"] "outer").insert ["b"] "outermost"
  ["a", "b", "/a", "../a"].map (fun path => (files.seek path).toOption)
    = [some "inner", some "outermost", none, some "outer"]
  := by
  decide +kernel

end FileTree

end TextPipeline
