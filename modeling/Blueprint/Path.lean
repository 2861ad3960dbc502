import Blueprint.Text.Basic

/-!
# Paths

A path is text, unlike the names that are found in a directory. Its components are the names between
slashes, where repeated slashes and dots after the first component say nothing; each name in a path
is text too.
-/

namespace Blueprint.Path

/-- A component of a path. -/
inductive Component where
  | root
  /-- A dot at the front of a relative path. -/
  | current
  | parent
  /-- A name, which is text as the whole path is. -/
  | normal (name : String)
deriving DecidableEq, Repr

namespace Component

/-- The component that a piece between slashes is; empty pieces and dots are none. -/
def ofPiece? (piece : List Char) : Option Component :=
  if piece = [] ∨ piece = ['.'] then none
  else if piece = ['.', '.'] then some parent
  else some (normal (String.ofList piece))

/-- The name that a component is. -/
def name? : Component → Option String
  | normal name => some name
  | root | current | parent => none

end Component

/-- The components of a path. -/
def components (path : String) : List Component :=
  match Text.splitAtChar '/' path.toList with
  | [] => []
  | first :: rest =>
    let start :=
      if first = [] then (if rest = [] then [] else [Component.root])
      else if first = ['.'] then [.current]
      else (Component.ofPiece? first).toList
    start ++ rest.filterMap Component.ofPiece?

def isAbsolute (path : String) : Bool :=
  path.toList.head? = some '/'

/-- The last component, if it is a name. -/
def fileName? (path : String) : Option String :=
  (components path).getLast?.bind Component.name?

/-- The part of a name after its last dot. A dot at the front does not count. -/
def nameExtension? (name : String) : Option String :=
  let characters := name.toList
  let tail := characters.reverse.takeWhile (· != '.')
  if characters.length ≤ tail.length + 1 then none else some (String.ofList tail.reverse)

def extension? (path : String) : Option String :=
  (fileName? path).bind nameExtension?

/-- A relative name put behind a path; an absolute name stands for itself. -/
def join (path name : String) : String :=
  if isAbsolute name then name
  else if path.isEmpty ∨ path.toList.getLast? = some '/' then path ++ name
  else path ++ "/" ++ name

/-- What is left of components behind others. -/
def stripComponents? : List Component → List Component → Option (List Component)
  | [], path => some path
  | _ :: _, [] => none
  | r :: root, p :: path => if r = p then stripComponents? root path else none

end Blueprint.Path
