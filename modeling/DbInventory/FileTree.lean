/-
# DbInventory.FileTree -- files and directories

A tree of files and directories, with the directory that relative paths start from. It is
kept as a map from locations to nodes; the root is always a directory. A path is resolved
name by name: every name in front of the last has to be a directory, also one that `..` goes
back from. `write` creates or replaces the file of a path, `remove` takes it away, and both
leave all other nodes as they are.
-/

import DbInventory.Dict
import DbInventory.Text.Parts
import DbInventory.Text.Utf8

namespace DbInventory

/-! ## Faults -/

/-- Why a path could not be used. -/
inductive FileFault where
  | missing
  | notDirectory
  | isDirectory
  | nameTooLong
  | nulByte
  | other (text : String)
  deriving DecidableEq

def FileFault.message : FileFault → String
  | .missing => "No such file or directory (os error 2)"
  | .notDirectory => "Not a directory (os error 20)"
  | .isDirectory => "Is a directory (os error 21)"
  | .nameTooLong => "File name too long (os error 36)"
  | .nulByte => "file name contained an unexpected NUL byte"
  | .other text => text

/-! ## Paths -/

/-- The names from the root to a node. -/
abbrev Location := List String

/-- The text of a location: a slash in front of each name. -/
def Location.text (l : Location) : String :=
  String.join (l.map ("/" ++ ·))

/-- A path as it is resolved: the names in front of the last one, the last one, and whether
a slash follows it. A path of slashes alone has no names. -/
structure FilePath where
  isAbsolute : Bool
  parents : List String
  last : Option String
  endsInSlash : Bool
  deriving DecidableEq

namespace FilePath

/-- The longest name and the longest path, in bytes. -/
def maxName : Nat := 255

def maxPath : Nat := 4095

/-- The path of a text. -/
def ofText (text : String) : Except FileFault FilePath :=
  if '\x00' ∈ text.toList then .error .nulByte
  else if text = "" then .error .missing
  else if maxPath < text.utf8ByteSize then .error .nameTooLong
  else
    let names := ((Text.parts '/' text.toList).filter (· ≠ [])).map String.ofList
    .ok {
      isAbsolute := text.toList.head? = some '/'
      parents := names.dropLast
      last := names.getLast?
      endsInSlash := text.toList.getLast? = some '/' }

end FilePath

/-! ## Trees -/

inductive FileNode where
  | file (content : String)
  | directory
  deriving DecidableEq

/-- Nodes by the texts of their locations, and the directory of relative paths. -/
structure FileTree where
  workingDirectory : Location
  nodes : Dict FileNode
  deriving DecidableEq

namespace FileTree

/-- The node at a location. -/
def node? (t : FileTree) (l : Location) : Option FileNode :=
  if l = [] then some .directory else t.nodes.get? l.text

/-- The tree with a node at a location. -/
def insert (t : FileTree) (l : Location) (n : FileNode) : FileTree :=
  { t with nodes := t.nodes.insert l.text n }

/-- The tree without the node at a location. -/
def erase (t : FileTree) (l : Location) : FileTree :=
  { t with nodes := t.nodes.erase l.text }

/-- The node of a name in a directory. -/
def child (t : FileTree) (l : Location) (name : String) :
    Except FileFault (Location × Option FileNode) :=
  if name = "." then .ok (l, some .directory)
  else if name = ".." then .ok (l.dropLast, some .directory)
  else if FilePath.maxName < name.utf8ByteSize then .error .nameTooLong
  else .ok (l ++ [name], t.node? (l ++ [name]))

/-- Goes from a directory through directories of the given names. -/
def descend (t : FileTree) : Location → List String → Except FileFault Location
  | l, [] => .ok l
  | l, name :: names => do
    match ← t.child l name with
    | (_, none) => .error .missing
    | (_, some (.file _)) => .error .notDirectory
    | (l, some .directory) => t.descend l names

/-- The directory that the last name of a path is looked up in. -/
def parent (t : FileTree) (path : FilePath) : Except FileFault Location :=
  t.descend (if path.isAbsolute then [] else t.workingDirectory) path.parents

/-- The node of a path. -/
def find (t : FileTree) (text : String) : Except FileFault (Location × FileNode) := do
  let path ← FilePath.ofText text
  let l ← t.parent path
  match path.last with
  | none => .ok (l, .directory)
  | some name =>
    match ← t.child l name with
    | (_, none) => .error .missing
    | (l, some (.file content)) =>
      if path.endsInSlash then .error .notDirectory else .ok (l, .file content)
    | (l, some .directory) => .ok (l, .directory)

/-- Puts a file at a path, in place of the file that is there. -/
def write (t : FileTree) (text content : String) : Except FileFault FileTree := do
  let path ← FilePath.ofText text
  let l ← t.parent path
  match path.last with
  | none => .error .isDirectory
  | some name =>
    if path.endsInSlash then .error .isDirectory
    else
      match ← t.child l name with
      | (_, some .directory) => .error .isDirectory
      | (l, _) => .ok (t.insert l (.file content))

/-- Takes the file of a path away. -/
def remove (t : FileTree) (text : String) : Except FileFault FileTree := do
  match ← t.find text with
  | (_, .directory) => .error .isDirectory
  | (l, .file _) => .ok (t.erase l)

end FileTree

end DbInventory
