import Blueprint.FileSystem
import Blueprint.Metadata.Document

/-!
# Documents in files

Reading and writing documents by path. The format of a file that is read is the one that its name
says.
-/

namespace Blueprint.Metadata

/-- The name of the document in the directory of a blueprint. -/
def fileName : String := "metadata.yaml"

def load (fs : FileSystem) (path : String) : Except Error Metadata :=
  match fs.readText path with
  | .ok text => parse path (.ofPath path) text
  | .error .notFound => .error (.fileNotFound path)
  | .error fault => .error (.access path fault)

def save (fs : FileSystem) (path : String) (format : Format) (spread : Bool)
    (document : Metadata) : Except Error FileSystem :=
  match fs.write path (document.render format spread).toUTF8 with
  | .ok fs => .ok fs
  | .error fault => .error (.access path fault)

end Blueprint.Metadata
