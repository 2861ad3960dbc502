import Blueprint.Program

/-!
# The executable

Takes a picture of the directories that a command line speaks of, runs the program on it, prints
what it prints and writes the files that it changed.
-/

namespace Blueprint.Executable

/-- How deep directories are looked into. -/
def depthLimit : Nat := 64

/-- What is at a path. Entries that cannot be read are left out. -/
def picture (depth : Nat) (path : String) : IO (Option Tree) := do
  match depth with
  | 0 => return none
  | depth + 1 =>
    try
      let place ← IO.FS.realPath path
      if ← place.isDir then
        let mut entries : List (FileName × Tree) := []
        for entry in ← place.readDir do
          if let some tree ← picture depth (path ++ "/" ++ entry.fileName) then
            entries := insertEntry (FileName.ofText entry.fileName) tree entries
        return some (.directory entries)
      else return some (.file (← IO.FS.readBinFile path))
    catch _ => return none

/-- The names that lead from the root to an absolute path. -/
def names (path : String) : List FileName :=
  ((FileSystem.pieces path).filter fun piece => piece != "").map FileName.ofText

/-- The paths on a command line, which may lead anywhere. -/
def mentioned (arguments : List String) : List String :=
  arguments.filter fun argument =>
    argument.toList.head? = some '/' || Text.contains "..".toList argument.toList

/-- The files that a command line may speak of. -/
def files (arguments : List String) : IO FileSystem := do
  let current := (← IO.currentDir).toString
  let mut root : Tree := .directory []
  for path in mentioned arguments ++ [current] do
    if let some tree ← picture depthLimit path then
      let place ← IO.FS.realPath path
      root := Tree.put tree (names place.toString) root
  return { root, workingDirectory := names current }

/-- The variables with some names. -/
def settings (names : List String) : IO Environment := do
  let mut env : Environment := .empty
  for name in names do
    if let some value ← IO.getEnv name then
      env := env.insert name value
  return env

/-- The names of the variables that a configuration refers to. -/
def referenced (fs : FileSystem) (env : Environment) (arguments : List String) : List String :=
  let given := match CommandLine.parse env arguments with
    | .ok invocation => invocation.config
    | .error _ => none
  match (Program.configPath? fs given).map fs.readText with
  | some (.ok text) =>
    (Environment.bracedNames false text.toList ++ Environment.bareNames text.toList).map
      String.ofList
  | _ => []

/-- Writes the files that are not as they were. -/
def store (before after : FileSystem) : IO Unit := do
  let old := before.root.files []
  for (place, bytes) in after.root.files [] do
    if old.lookup place != some bytes then
      IO.FS.writeBinFile ("/" ++ String.intercalate "/" place) bytes

end Blueprint.Executable

open Blueprint Executable in
/-- Runs the program on the files and the environment that it finds. -/
def main (arguments : List String) : IO UInt32 := do
  let fs ← files arguments
  let early ← settings [CommandLine.Given.configVariable]
  let env ← settings (CommandLine.Given.configVariable :: referenced fs early arguments)
  let outcome := Program.run (Tool.named fs) env fs arguments
  store fs outcome.files
  IO.print outcome.output
  return UInt32.ofNat outcome.exitCode
