import Blueprint.Constraint

/-!
# Errors

Why an operation on a blueprint failed. An error knows the exit code of a program that ends with it
and whether a scan may go on after it; several errors are reported as one.
-/

namespace Blueprint

/-- Why a file or directory could not be used. -/
inductive AccessFault where
  | permissionDenied
  | notFound
  /-- Any other reason: not a directory, not a file, not text. -/
  | other
deriving DecidableEq, Repr

/-- What is wrong with the bytes of a state. -/
inductive StateFault where
  | notJson
  | notObject
deriving DecidableEq, Repr

namespace StateFault

/-- The wording of a fault that the library words itself. -/
def message? : StateFault → Option String
  | notJson => none
  | notObject => some "state is not a JSON object"

end StateFault

/-- Why an operation failed. Paths are the text by which a file was reached. -/
inductive Error where
  | access (path : String) (fault : AccessFault)
  | fileNotFound (path : String)
  | directoryNotFound (path : String)
  /-- The text of a file is not in the configuration language. -/
  | syntaxError (path : String)
  | validation (path : String) (message : String)
  | metadata (path : String)
  | stateRetrieval (path : String)
  | state (path : String) (fault : StateFault)
  | version (text : String) (fault : VersionFault)
  | emptyConstraint (text : String)
  | config
  | configValue (key : String) (message : String)
  | internal
  | multiple (errors : List Error)
deriving Repr

namespace Error

instance : Inhabited Error := ⟨internal⟩

/-- The exit code of a program that ends with an error. -/
def exitCode : Error → Nat
  | access _ .permissionDenied => 13
  | fileNotFound _ => 14
  | directoryNotFound _ => 15
  | syntaxError _ => 16
  | validation .. => 17
  | config => 18
  | configValue .. => 19
  | stateRetrieval _ | state .. => 20
  | multiple _ => 21
  | metadata _ => 22
  | access .. | version .. | emptyConstraint _ | internal => 1

/-- Whether a scan may record an error and go on. -/
def isRecoverable : Error → Bool
  | syntaxError _ | validation .. | version .. | emptyConstraint _ => true
  | _ => false

def ofConstraintFault (text : String) : ConstraintFault → Error
  | .empty => emptyConstraint text
  | .version clause fault => Error.version clause fault

/-- One error for a list of them: none when the list is empty, the error itself when it is the only
one. -/
def collect : List Error → Except Error Unit
  | [] => .ok ()
  | [error] => .error error
  | errors => .error (multiple errors)

end Error
end Blueprint
