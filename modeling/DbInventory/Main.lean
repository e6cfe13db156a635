/-
# DbInventory.Main -- the command line program

Reads the variables of the environment, runs the command line, and prints what comes of it.
No connection can be made from here, so every request ends as one that could not be sent, and
no file is ever written.
-/

import DbInventory.App

namespace DbInventory

/-- A network that takes no request; its clock stands still. -/
def unreachable : Network Unit where
  now s := (0, s)
  send _ s := (.error .notSent, s)

/-- A tree with nothing in it but the working directory. -/
def emptyTree : FileTree where
  workingDirectory := []
  nodes := ∅

/-- The variables of the options that are set. -/
def readEnvironment : List CliOption → IO Environment
  | [] => pure fun _ => none
  | o :: options => do
    let others ← readEnvironment options
    match o.envName? with
    | none => pure others
    | some name => do
      let value ← IO.getEnv name
      pure fun n => if n = name then value else others n

/-- The home directory, if it is known. -/
def readHome : IO (Option String) := do
  let home ← IO.getEnv "HOME"
  pure (home.filter (· ≠ ""))

end DbInventory

open DbInventory in
/-- Runs the command line. -/
def main (args : List String) : IO UInt32 := do
  let env ← readEnvironment CliOption.all
  let home ← readHome
  let (outcome, _, _) := Program.run env home unreachable args () emptyTree
  IO.print outcome.output
  for message in outcome.errors do
    IO.eprintln message
  match Arguments.read env args with
  | .error e => if e.exitCode ≠ 0 then IO.eprintln e.message
  | .ok _ => pure ()
  pure (UInt32.ofNat outcome.exitCode)
