import Blueprint.SortedMap
import Blueprint.Text.Basic

/-!
# References to environment variables

A text may refer to variables of the environment by their names, after a dollar sign, with or
without braces. References are found in the text as it was given; then each of them is replaced
wherever it occurs in the text as it has become, those in braces first. Variables that are not set
stay as they are written.
-/

namespace Blueprint

/-- The variables that a program is started with. -/
abbrev Environment := SortedMap String

namespace Environment

/-- The name in braces with which a text after a dollar sign starts. -/
def bracedName? : List Char → Option (List Char)
  | '\x7b' :: rest =>
    let name := rest.takeWhile (· != '\x7d')
    if name.isEmpty || !rest.contains '\x7d' then none else some name
  | _ => none

/-- The names of the references in braces, which do not overlap. `inside` says that a reference was
found and has not ended. -/
def bracedNames (inside : Bool) : List Char → List (List Char)
  | [] => []
  | c :: rest =>
    if inside then bracedNames (c != '\x7d') rest
    else match if c = '$' then bracedName? rest else none with
      | some name => name :: bracedNames true rest
      | none => bracedNames false rest

/-- Whether a name without braces may start with a character. -/
def isNameStart (c : Char) : Bool :=
  c.isAlpha || c == '_'

/-- Whether a name without braces may go on with a character. -/
def isNamePart (c : Char) : Bool :=
  isNameStart c || c.isDigit

/-- The name with which a text after a dollar sign starts. -/
def bareName? : List Char → Option (List Char)
  | [] => none
  | c :: rest => if isNameStart c then some (c :: rest.takeWhile isNamePart) else none

/-- The names of the references without braces. -/
def bareNames : List Char → List (List Char)
  | [] => []
  | c :: rest =>
    match if c = '$' then bareName? rest else none with
    | some name => name :: bareNames rest
    | none => bareNames rest

/-- Replaces a reference to a variable that is set. -/
def replaceReference (env : Environment) (write : List Char → List Char) (text name : List Char) :
    List Char :=
  match env.get? (String.ofList name) with
  | some value => Text.replaceAll (write name) value.toList text
  | none => text

def braced (name : List Char) : List Char :=
  '$' :: '\x7b' :: name ++ ['\x7d']

def bare (name : List Char) : List Char :=
  '$' :: name

/-- A text with its references replaced. -/
def expand (env : Environment) (text : String) : String :=
  let given := text.toList
  let once := (bracedNames false given).foldl (replaceReference env braced) given
  String.ofList ((bareNames given).foldl (replaceReference env bare) once)

end Environment
end Blueprint
