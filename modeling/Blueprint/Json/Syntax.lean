import Blueprint.Value

/-!
# JSON texts as trees

What a JSON text says before anyone asks for a value. Members of an object keep their order and may
repeat a name. A number that is too large and a string with half of a surrogate pair belong to the
grammar but have no value; they only matter where the value is asked for.
-/

namespace Blueprint

inductive Json where
  | null
  | bool (b : Bool)
  | number (value? : Option Number)
  | string (text? : Option String)
  | array (items : List Json)
  | object (members : List (Option String × Json))
deriving Repr

namespace Json

instance : Inhabited Json := ⟨null⟩

/-- How deep the arrays and objects of a text that is read may nest. -/
def maxDepth : Nat := 127

mutual
/-- The tree of a value. -/
def ofValue : Value → Json
  | .null => null
  | .bool b => bool b
  | .number n => number (some n)
  | .string s => string (some s)
  | .array items => array (ofItems items)
  | .object fields => object (ofFields fields)

def ofItems : List Value → List Json
  | [] => []
  | item :: rest => ofValue item :: ofItems rest

def ofFields : List (String × Value) → List (Option String × Json)
  | [] => []
  | (name, value) :: rest => (some name, ofValue value) :: ofFields rest
end

mutual
/-- The value of a tree whose containers nest at most `depth` deep. -/
def toValue? (depth : Nat) : Json → Option Value
  | null => some .null
  | bool b => some (.bool b)
  | number value? => value?.map .number
  | string text? => text?.map .string
  | array items =>
    match depth with
    | 0 => none
    | depth + 1 => (itemsToValues? depth items).map .array
  | object members =>
    match depth with
    | 0 => none
    | depth + 1 => (membersToFields? depth members).map .ofFields

def itemsToValues? (depth : Nat) : List Json → Option (List Value)
  | [] => some []
  | item :: rest => do
    let value ← toValue? depth item
    return value :: (← itemsToValues? depth rest)

def membersToFields? (depth : Nat) : List (Option String × Json) → Option (List (String × Value))
  | [] => some []
  | (name?, member) :: rest => do
    let name ← name?
    let value ← toValue? depth member
    return (name, value) :: (← membersToFields? depth rest)
end

end Json
end Blueprint
