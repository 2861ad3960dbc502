import Blueprint.Shell

/-!
# Where states come from

The state of a blueprint is read from a file or printed by a tool. A tool is anything that prints
something in a directory for some arguments, or fails.
-/

namespace Blueprint

/-- A tool that is run in a directory with arguments; it prints something, or fails. -/
abbrev Tool := (directory : String) → (arguments : List String) → Option ByteArray

namespace Tool

/-- The tool that fails whatever it is asked. -/
def missing : Tool := fun _ _ => none

def shellPath : String := "/bin/sh"

/-- The tool of a name. Only the shell is known, whose first argument is the name of a script. -/
def named (files : FileSystem) (name : String) : Tool := fun directory arguments =>
  match arguments with
  | script :: rest => if name = shellPath then Shell.run? files directory script rest else none
  | [] => none

end Tool

/-- Retrieves the state of the blueprint at a path. -/
abbrev StateSource := (path : String) → Except Error ByteArray

namespace StateSource

/-- A file that holds the state, whatever the blueprint. -/
def file (files : FileSystem) (statePath : String) : StateSource := fun _ =>
  match files.read statePath with
  | .ok bytes => .ok bytes
  | .error _ => .error (.stateRetrieval statePath)

/-- A tool that is first told to prepare the directory and then to show its state. -/
def tool (tool : Tool) : StateSource := fun path =>
  match tool path ["init", "-input=false"] with
  | none => .error (.stateRetrieval path)
  | some _ =>
    match tool path ["show", "-json"] with
    | some bytes => .ok bytes
    | none => .error (.stateRetrieval path)

end StateSource
end Blueprint
