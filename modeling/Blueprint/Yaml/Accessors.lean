import Blueprint.Metadata.Decode
import Blueprint.Yaml.Node
import Blueprint.Yaml.Schema

/-!
# Records in YAML

How a YAML tree answers a reader of records. A record is a mapping in which no known key is
repeated, or nothing at all. What is read may nest to a limited depth; what is ignored may nest
further.
-/

namespace Blueprint.Yaml

/-- The tag of a type of the core schema. -/
def coreTag (type : String) : String :=
  "tag:yaml.org,2002:" ++ type

/-- Whether a tag is of the author's own making. -/
def isLocalTag (tag? : Option String) : Bool :=
  match tag? with
  | some tag => tag.toList.head? == some '!'
  | none => false

/-- Whether a scalar may spell a value of a type: plain, or literal with the tag of the type. -/
def maySpell (type : String) (tag? : Option String) (style : Style) : Bool :=
  style == .plain || (style == .literal && tag? == some (coreTag type))

namespace Node

def text? : Node → Option String
  | scalar _ _ text => some text
  | _ => none

/-- Whether a node is a plain scalar without text. -/
def isNothing : Node → Bool
  | scalar _ .plain text => text.isEmpty
  | _ => false

/-- The value of a scalar. Tags of the core schema demand a spelling of their type; any other tag of
the schema makes it text. -/
def scalarValue? (tag? : Option String) (style : Style) (text : String) : Option Value :=
  let characters := text.toList
  match tag? with
  | none => if style = .plain then plainValue? characters else some (.string text)
  | some tag =>
    if isLocalTag tag? then none
    else if tag = coreTag "bool" then (bool? characters).map .bool
    else if tag = coreTag "int" then
      match int? characters with
      | some (.usable n) => some (.number (.whole n))
      | _ => none
    else if tag = coreTag "float" then (real? characters).map Real.toValue
    else if tag = coreTag "null" then if isNull characters then some .null else none
    else some (.string text)

mutual
/-- The value of a node whose collections nest at most `depth` deep. -/
def toValue? (depth : Nat) : Node → Option Value
  | scalar tag? style text => scalarValue? tag? style text
  | sequence tag? items =>
    match depth with
    | 0 => none
    | depth + 1 => if isLocalTag tag? then none else (itemsToValues? depth items).map .array
  | mapping tag? entries =>
    match depth with
    | 0 => none
    | depth + 1 => if isLocalTag tag? then none else (entriesToFields? depth entries).map .ofFields
  | endless => none

def itemsToValues? (depth : Nat) : List Node → Option (List Value)
  | [] => some []
  | item :: rest => do
    let value ← toValue? depth item
    return value :: (← itemsToValues? depth rest)

/-- The fields of a list of entries. Keys are taken by their text. -/
def entriesToFields? (depth : Nat) : List (Node × Node) → Option (List (String × Value))
  | [] => some []
  | (key, node) :: rest => do
    let name ← key.text?
    let value ← toValue? depth node
    return (name, value) :: (← entriesToFields? depth rest)
end

end Node

/-- A node, and how many levels of collections may be read from it. -/
structure Bounded where
  node : Node
  depth : Nat
deriving Repr

/-- How deep the collections of a text may nest. -/
def maxDepth : Nat := 128

namespace Bounded

/-- The only value of a key; none where there is no such key, a refusal where there are several. -/
def value? (entries : List (Node × Node)) (name : String) : Option (Option Node) :=
  match entries.filter fun entry => entry.1.text? == some name with
  | [] => some none
  | [(_, node)] => some (some node)
  | _ => none

def record? (names : List String) (tree : Bounded) : Option (List (Option Bounded)) :=
  match tree.depth, tree.node with
  | depth + 1, .mapping _ entries =>
    if entries.all fun entry => entry.1.text?.isSome then
      names.mapM fun name => (value? entries name).map fun node? => node?.map (⟨·, depth⟩)
    else none
  | _, node => if node.isNothing then some (names.map fun _ => none) else none

def items? (tree : Bounded) : Option (List Bounded) :=
  match tree.depth, tree.node with
  | depth + 1, .sequence _ items => some (items.map (⟨·, depth⟩))
  | _, node => if node.isNothing then some [] else none

def entries? (tree : Bounded) : Option (List (String × Bounded)) :=
  match tree.depth, tree.node with
  | depth + 1, .mapping _ entries =>
    entries.mapM fun entry => entry.1.text?.map fun name => (name, ⟨entry.2, depth⟩)
  | _, node => if node.isNothing then some [] else none

/-- The name of an alternative: the text of a scalar, or the author's own tag of nothing. -/
def choice? (tree : Bounded) : Option String :=
  match tree.node with
  | .scalar tag? style text =>
    match tag?.map String.toList with
    | some ('!' :: name) =>
      if style = .plain ∧ (text.isEmpty ∨ isNull text.toList) then some (String.ofList name)
      else none
    | _ => some text
  | _ => none

/-- Nothing is an empty plain scalar or null. A tag for null demands a spelling of null. -/
def present? (tree : Bounded) : Option (Option Bounded) :=
  match tree.node with
  | .scalar (some tag) .plain text =>
    if tag = coreTag "null" then if isNull text.toList then some none else none
    else some (some tree)
  | .scalar none .plain text =>
    if text.isEmpty || isNull text.toList then some none else some (some tree)
  | .endless => none
  | _ => some (some tree)

/-- How YAML trees answer readers of records. -/
def accessors : Accessors Bounded where
  record? := record?
  items? := items?
  entries? := entries?
  text? tree := tree.node.text?
  bool? tree := match tree.node with
    | .scalar tag? style text => if maySpell "bool" tag? style then bool? text.toList else none
    | _ => none
  count? tree := match tree.node with
    | .scalar tag? style text =>
      if maySpell "int" tag? style then (nat? text.toList).filter (· < 18446744073709551616) else none
    | _ => none
  value? tree := tree.node.toValue? tree.depth
  choice? := choice?
  present? := present?

end Bounded
end Blueprint.Yaml
