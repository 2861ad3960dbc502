import Blueprint.Error
import Blueprint.Json.Accessors
import Blueprint.Json.Parser
import Blueprint.Json.Printer
import Blueprint.Metadata.Encode
import Blueprint.Path
import Blueprint.Yaml.Accessors
import Blueprint.Yaml.Parser
import Blueprint.Yaml.Printer

/-!
# Documents as text

A document is read from YAML or JSON and written as either. Only JSON has a compact form.
-/

namespace Blueprint

namespace Format

/-- A letter in lower case, if it is one of the first 128 characters. -/
def foldCase (c : Char) : Char :=
  if 'A' ≤ c ∧ c ≤ 'Z' then Char.ofNat (c.toNat + 32) else c

/-- The format of the file that a path leads to. -/
def ofPath (path : String) : Format :=
  match Path.extension? path with
  | some extension =>
    if extension.toList.map foldCase = "json".toList then json else yaml
  | none => yaml

end Format

namespace Metadata

def read? (format : Format) (text : String) : Option Metadata :=
  match format with
  | .yaml => (Yaml.read? text).bind fun node => decode Yaml.Bounded.accessors ⟨node, Yaml.maxDepth⟩
  | .json => (Json.parse? text).bind fun json => decode Json.Bounded.accessors ⟨json, Json.maxDepth⟩

/-- Reads a document from the text of a file. -/
def parse (path : String) (format : Format) (text : String) : Except Error Metadata :=
  match read? format text with
  | some document => .ok document
  | none => .error (.metadata path)

/-- Writes a document; `spread` asks for a text over several lines. -/
def render (document : Metadata) (format : Format) (spread : Bool) : String :=
  match format with
  | .yaml => Yaml.render document.toValue
  | .json =>
    if spread then Json.render true document.toValue ++ "\n" else Json.render false document.toValue

end Metadata
end Blueprint
