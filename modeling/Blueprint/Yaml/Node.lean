import Blueprint.Yaml.Scalar

/-!
# YAML texts as trees

What a YAML text says before anyone asks for a value. Aliases are replaced by what they stand for;
an alias of a collection that it lies in has no tree and is kept as `endless`.
-/

namespace Blueprint.Yaml

/-- Tags are written in full. -/
inductive Node where
  | scalar (tag? : Option String) (style : Style) (text : String)
  | sequence (tag? : Option String) (items : List Node)
  | mapping (tag? : Option String) (entries : List (Node × Node))
  | endless
deriving Repr

namespace Node

/-- What stands where nothing is written. -/
def empty : Node := scalar none .plain ""

/-- The tag that a scalar keeps. A single exclamation mark says of a text that is written no more
than that it has no other tag. -/
def scalarTag? (style : Style) (text : String) (tag? : Option String) : Option String :=
  if style = .plain && text.isEmpty then tag? else tag?.filter (· != "!")

/-- The node with another tag, if there is one. -/
def withTag (node : Node) (tag? : Option String) : Node :=
  match tag?, node with
  | some tag, scalar _ style text => scalar (scalarTag? style text (some tag)) style text
  | some tag, sequence _ items => sequence (some tag) items
  | some tag, mapping _ entries => mapping (some tag) entries
  | _, node => node

instance : Inhabited Node := ⟨empty⟩

end Node
end Blueprint.Yaml
