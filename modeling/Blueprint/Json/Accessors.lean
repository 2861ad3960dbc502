import Blueprint.Json.Syntax
import Blueprint.Metadata.Decode

/-!
# Records in JSON

How a JSON tree answers a reader of records. A record is an object in which no known field is
repeated, or an array of its fields in order of which the last ones may be missing. What is read may
nest to a limited depth; what is ignored may nest further.
-/

namespace Blueprint.Json

/-- A tree, and how many levels of arrays and objects may be read from it. -/
structure Bounded where
  json : Json
  depth : Nat
deriving Repr

namespace Bounded

/-- The only member of a name; none where there is no such member, a refusal where there are
several. -/
def member? (members : List (Option String × Json)) (name : String) : Option (Option Json) :=
  match members.filter fun member => member.1 == some name with
  | [] => some none
  | [(_, json)] => some (some json)
  | _ => none

def record? (names : List String) (tree : Bounded) : Option (List (Option Bounded)) :=
  match tree.depth, tree.json with
  | depth + 1, .object members =>
    if members.all fun member => member.1.isSome then
      names.mapM fun name => (member? members name).map fun json? => json?.map (⟨·, depth⟩)
    else none
  | depth + 1, .array items =>
    if items.length ≤ names.length then
      some (items.map (fun json => some ⟨json, depth⟩) ++
        List.replicate (names.length - items.length) none)
    else none
  | _, _ => none

def items? (tree : Bounded) : Option (List Bounded) :=
  match tree.depth, tree.json with
  | depth + 1, .array items => some (items.map (⟨·, depth⟩))
  | _, _ => none

def entries? (tree : Bounded) : Option (List (String × Bounded)) :=
  match tree.depth, tree.json with
  | depth + 1, .object members =>
    members.mapM fun member => member.1.map fun name => (name, ⟨member.2, depth⟩)
  | _, _ => none

/-- The name of an alternative: a string, or the only member of an object, with null. -/
def choice? (tree : Bounded) : Option String :=
  match tree.depth, tree.json with
  | _, .string text? => text?
  | _ + 1, .object [(name?, .null)] => name?
  | _, _ => none

def count? (tree : Bounded) : Option Nat :=
  match tree.json with
  | .number (some (.whole n)) => n.toNat?
  | _ => none

/-- How JSON trees answer readers of records. -/
def accessors : Accessors Bounded where
  record? := record?
  items? := items?
  entries? := entries?
  text? tree := match tree.json with
    | .string text? => text?
    | _ => none
  bool? tree := match tree.json with
    | .bool b => some b
    | _ => none
  count? := count?
  value? tree := toValue? tree.depth tree.json
  choice? := choice?
  present? tree := match tree.json with
    | .null => some none
    | _ => some (some tree)

end Bounded
end Blueprint.Json
