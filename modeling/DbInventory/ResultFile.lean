/-
# DbInventory.ResultFile -- results saved to a file

A result is saved as JSON text, indented by tabs. The file of the path is replaced as a whole:
one that is there is removed first, and a directory is refused. A path may start with a tilde
for the home directory.
-/

import DbInventory.FileTree
import DbInventory.Json.Printer

namespace DbInventory

/-- Why a result could not be saved. -/
inductive SaveError where
  | homeUnknown
  | isDirectory (path : String)
  | file (fault : FileFault)
  deriving DecidableEq

/-- A path behind another one, with one slash between them. -/
def joinPath (base rest : String) : String :=
  if base = "" ∨ base.toList.getLast? = some '/' then base ++ rest else base ++ "/" ++ rest

/-- The path of a text that may start with a tilde; slashes behind the tilde do not count. -/
def expandHome (home : Option String) (path : String) : Except SaveError String :=
  match path.toList with
  | '~' :: rest =>
    match home with
    | none => .error .homeUnknown
    | some home => .ok (joinPath home (String.ofList (rest.dropWhile (· = '/'))))
  | _ => .ok path

/-- Puts a text at a path, in place of the file that is there. -/
def replaceFile (tree : FileTree) (path text : String) : Except SaveError FileTree :=
  match tree.find path with
  | .ok (_, .directory) => .error (.isDirectory path)
  | .ok (_, .file _) => (do (← tree.remove path).write path text).mapError .file
  | .error _ => (tree.write path text).mapError .file

/-- Saves a value, and gives the path that it went to. -/
def saveResult (home : Option String) (tree : FileTree) (path : String) (v : Json) :
    Except SaveError (String × FileTree) := do
  let path ← expandHome home path
  let tree ← replaceFile tree path v.tabbedText
  .ok (path, tree)

end DbInventory
