import Blueprint.Error
import Blueprint.Hcl.BodyParser
import Blueprint.Hcl.Literal

/-!
# Source files

A file in the configuration language, by its path and what it says.
-/

namespace Blueprint

/-- A source file that was read. -/
structure SourceFile where
  path : String
  body : Hcl.Body
deriving Repr, Inhabited

namespace SourceFile

def parse (path text : String) : Except Error SourceFile :=
  match Hcl.Body.read? text with
  | some body => .ok { path, body }
  | none => .error (.syntaxError path)

/-- Reads the bytes of a source file, which have to be text. -/
def ofBytes (path : String) (bytes : ByteArray) : Except Error SourceFile :=
  match String.fromUTF8? bytes with
  | some text => parse path text
  | none => .error (.access path .other)

end SourceFile
end Blueprint
