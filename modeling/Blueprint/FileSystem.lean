import Blueprint.Error
import Blueprint.FileName
import Blueprint.SortedMap
import Blueprint.Text.Basic

/-!
# Files and directories

A file system is a tree of directories with a working directory. Paths are followed piece by piece:
every piece but the last has to be a directory, an empty piece or a dot stays in it, and two dots
lead to the directory above. Directories keep their entries in ascending order of names. A path is
text, and so are its pieces; a name in a directory need not be.
-/

namespace Blueprint

/-- A file with its contents, or a directory with its entries. -/
inductive Tree where
  | file (bytes : ByteArray)
  | directory (entries : List (FileName × Tree))

namespace Tree

instance : Inhabited Tree := ⟨directory []⟩

/-- The entries of a directory; a file has none. -/
def entries : Tree → List (FileName × Tree)
  | file _ => []
  | directory entries => entries

def isDirectory : Tree → Bool
  | file _ => false
  | directory _ => true

def child? (tree : Tree) (name : FileName) : Option Tree :=
  tree.entries.lookup name

/-- What the names of directories and at last of an entry lead to. -/
def at? (tree : Tree) : List FileName → Option Tree
  | [] => some tree
  | name :: names => (tree.child? name).bind fun child => child.at? names

/-- The tree with some content where names lead to. Directories on the way that are missing are
made. -/
def put (content : Tree) : List FileName → Tree → Tree
  | [], _ => content
  | name :: names, tree =>
    let child := (tree.child? name).getD (directory [])
    directory (insertEntry name (put content names child) tree.entries)

mutual
/-- All files of a tree by the names that lead to them as they are shown, those above them first. -/
def files (above : List String) : Tree → List (List String × ByteArray)
  | file bytes => [(above, bytes)]
  | directory entries => filesOfEntries above entries

def filesOfEntries (above : List String) : List (FileName × Tree) → List (List String × ByteArray)
  | [] => []
  | (name, tree) :: rest => files (above ++ [name.shown]) tree ++ filesOfEntries above rest
end

end Tree

/-- A tree of directories, and the names that lead to the working directory. -/
structure FileSystem where
  root : Tree
  workingDirectory : List FileName
deriving Inhabited

namespace FileSystem

/-- The pieces of a path between slashes. -/
def pieces (path : String) : List String :=
  (Text.splitAtChar '/' path.toList).map String.ofList

/-- Follows pieces from a place, which is given by names. -/
def follow (root : Tree) (place : List FileName) :
    List String → Except AccessFault (List FileName)
  | [] => .ok place
  | piece :: rest =>
    match root.at? place with
    | none => .error .notFound
    | some (.file _) => .error .other
    | some (.directory entries) =>
      if piece = "" ∨ piece = "." then follow root place rest
      else if piece = ".." then follow root place.dropLast rest
      else if (entries.lookup (FileName.ofText piece)).isSome then
        follow root (place ++ [.ofText piece]) rest
      else .error .notFound

/-- The place where a path starts. -/
def start (fs : FileSystem) (path : String) : List FileName :=
  if path.toList.head? = some '/' then [] else fs.workingDirectory

/-- The place that a path leads to. -/
def locate (fs : FileSystem) (path : String) : Except AccessFault (List FileName) :=
  if path.isEmpty then .error .notFound
  else if path.toList.contains '\x00' then .error .other
  else follow fs.root (fs.start path) (pieces path)

def find (fs : FileSystem) (path : String) : Except AccessFault Tree := do
  match fs.root.at? (← fs.locate path) with
  | some tree => return tree
  | none => throw .notFound

/-- The entries of the directory that a path leads to. -/
def directory? (fs : FileSystem) (path : String) : Option (List (FileName × Tree)) :=
  match fs.find path with
  | .ok (.directory entries) => some entries
  | _ => none

def isFile (fs : FileSystem) (path : String) : Bool :=
  match fs.find path with
  | .ok (.file _) => true
  | _ => false

def contains (fs : FileSystem) (path : String) : Bool :=
  match fs.find path with
  | .ok _ => true
  | .error _ => false

def read (fs : FileSystem) (path : String) : Except AccessFault ByteArray := do
  match ← fs.find path with
  | .file bytes => return bytes
  | .directory _ => throw .other

def readText (fs : FileSystem) (path : String) : Except AccessFault String := do
  match String.fromUTF8? (← fs.read path) with
  | some text => return text
  | none => throw .other

/-- The place of a file that is to be written: its directory exists, and no directory has its
name. -/
def target (fs : FileSystem) (path : String) : Except AccessFault (List FileName) := do
  if path.isEmpty then throw .notFound
  if path.toList.contains '\x00' then throw .other
  let all := pieces path
  let name := all.getLast?.getD ""
  let place ← follow fs.root (fs.start path) all.dropLast
  if name ∈ ["", ".", ".."] then throw .other
  match fs.root.at? place with
  | some (.directory entries) =>
    match entries.lookup (FileName.ofText name) with
    | some (.directory _) => throw .other
    | _ => return place ++ [.ofText name]
  | _ => throw .other

/-- Writes a file, which may exist. -/
def write (fs : FileSystem) (path : String) (bytes : ByteArray) : Except AccessFault FileSystem := do
  let place ← fs.target path
  return { fs with root := Tree.put (.file bytes) place fs.root }

/-- The name that a path leads to once dots are gone, as it is shown; the root has none. -/
def name? (fs : FileSystem) (path : String) : Option String :=
  match fs.locate path with
  | .ok place => place.getLast?.map FileName.shown
  | .error _ => none

end FileSystem
end Blueprint
