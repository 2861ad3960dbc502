import Blueprint.Config
import Blueprint.Extract.Interface
import Blueprint.FileSystem
import Blueprint.Path
import Blueprint.SourceFile

/-!
# Scanning directories

The source files of a directory are read in preorder, siblings in ascending order of names, down to
a configured depth. Hidden entries, entries of some well-known names and entries that match a
configured pattern are left out with all that is below them. An entry whose name is not text is
never left out. A file whose text is faulty may be recorded and passed over; a file that is not text
stops the scan.
-/

namespace Blueprint

/-- The source files of a directory, and the errors of those that were passed over. -/
structure Sources where
  files : List SourceFile := []
  errors : List Error := []
deriving Repr, Inhabited

namespace Sources

/-- The files, provided that none was passed over. -/
def complete (sources : Sources) : Except Error (List SourceFile) :=
  (Error.collect sources.errors).map fun _ => sources.files

/-- What all files say, one after the other. -/
def body (sources : Sources) : Hcl.Body :=
  sources.files.flatMap (·.body)

end Sources

namespace Scan

/-- Names of entries that are never part of a blueprint. -/
def skippedNames : List String :=
  [".terraform", ".terragrunt-cache", "terraform.tfstate"]

/-- Whether an entry is left out for its name. Only text is looked at. -/
def isSkipped (options : ScanOptions) (name : FileName) : Bool :=
  match name.text? with
  | none => false
  | some text =>
    text.toList.head? == some '.' || skippedNames.contains text ||
      options.excludePatterns.any fun pattern => Glob.matchesName pattern text

/-- Whether the name of a file, as it is shown, is that of a source file. -/
def isSource (name : String) : Bool :=
  ".tf".toList.isSuffixOf name.toList

mutual
/-- The source files of a tree that is shown under a name in a directory. `depth` levels below it
are read. -/
def filesOf (options : ScanOptions) (path name : String) (depth : Nat) :
    Tree → List (String × ByteArray)
  | .file bytes => if isSource name then [(path, bytes)] else []
  | .directory entries =>
    match depth with
    | 0 => []
    | depth + 1 => filesIn options path depth entries

/-- The source files of the entries of a directory, by their paths. -/
def filesIn (options : ScanOptions) (directory : String) (depth : Nat) :
    List (FileName × Tree) → List (String × ByteArray)
  | [] => []
  | (name, tree) :: rest =>
    -- What is left out is left out with all that is below it.
    let here :=
      if isSkipped options name then []
      else filesOf options (Path.join directory name.shown) name.shown depth tree
    here ++ filesIn options directory depth rest
end

/-- Reads files. Where errors are tolerated, a file that may be passed over is. -/
def readAll (tolerant : Bool) : List (String × ByteArray) → Except Error Sources
  | [] => .ok {}
  | (path, bytes) :: rest =>
    match SourceFile.ofBytes path bytes with
    | .ok file =>
      (readAll tolerant rest).map fun sources => { sources with files := file :: sources.files }
    | .error error =>
      if tolerant && error.isRecoverable then
        (readAll tolerant rest).map fun sources => { sources with errors := error :: sources.errors }
      else .error error

def directory (options : ScanOptions) (fs : FileSystem) (path : String) : Except Error Sources :=
  match fs.directory? path with
  | none => .error (.directoryNotFound path)
  | some entries =>
    readAll options.continueOnError
      (match options.maxDepth with
        | 0 => []
        | depth + 1 => filesIn options path depth entries)

def file (fs : FileSystem) (path : String) : Except Error SourceFile :=
  match fs.readText path with
  | .ok text => SourceFile.parse path text
  | .error .notFound => .error (.fileNotFound path)
  | .error fault => .error (.access path fault)

/-- The interface that a directory declares, every file of which has to be read. -/
def interface (options : ScanOptions) (fs : FileSystem) (path : String) : Except Error Interface := do
  Interface.ofFiles (← (← directory options fs path).complete)

def variableOrders (options : ScanOptions) (fs : FileSystem) (path : String) :
    Except Error (SortedMap Nat) := do
  Interface.variableOrders (← (← directory options fs path).complete)

end Scan
end Blueprint
