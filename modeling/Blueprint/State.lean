import Blueprint.Error
import Blueprint.Json.Parser
import Blueprint.Metadata

/-!
# Types of outputs from a recorded state

A state is a JSON object that lists outputs, at its top or under `values`. The type of an output is
the one that the state records, or else the shape of its value.
-/

namespace Blueprint

namespace Value

mutual
/-- The type of a value by its shape; null has none. -/
def inferType? : Value → Option Value
  | null => none
  | bool _ => some (string "bool")
  | number _ => some (string "number")
  | string _ => some (string "string")
  | array items => some (array [string "tuple", array (itemTypes items)])
  | object fields => some (array [string "object", ofFields (fieldTypes fields)])

/-- The types of the items of an array; a null is of any type. -/
def itemTypes : List Value → List Value
  | [] => []
  | item :: rest => (inferType? item).getD (string "dynamic") :: itemTypes rest

/-- The types of the fields of an object; a null is of any type. -/
def fieldTypes : List (String × Value) → List (String × Value)
  | [] => []
  | (name, value) :: rest =>
    (name, (inferType? value).getD (string "dynamic")) :: fieldTypes rest
end

end Value

namespace State

/-- The value that the bytes of a state hold. -/
def read? (bytes : ByteArray) : Option Value :=
  (String.fromUTF8? bytes).bind fun text => (Json.parse? text).bind (Json.toValue? Json.maxDepth)

/-- The outputs that a state lists: an object in the field `outputs`, which is looked for under
`values` only where the top has no such field. -/
def outputs (state : Value) : List (String × Value) :=
  match (state.field? "outputs").or ((state.field? "values").bind (Value.field? "outputs")) with
  | some (.object fields) => fields
  | _ => []

/-- The type of an output: the recorded one unless it is null, or else the shape of the value. -/
def outputType? (entry : Value) : Option Value :=
  match entry.field? "type" with
  | none | some .null => (entry.field? "value").bind Value.inferType?
  | some type => some type

/-- The types of all outputs of a state that can be told. -/
def typesOf (state : Value) : SortedMap Value :=
  .ofList ((outputs state).filterMap fun (name, entry) =>
    (outputType? entry).map fun type => (name, type))

/-- The types of the outputs in the bytes of a state. -/
def outputTypes (path : String) (bytes : ByteArray) : Except Error (SortedMap Value) :=
  match read? bytes with
  | none => .error (.state path .notJson)
  | some state =>
    match state with
    | .object _ => .ok (typesOf state)
    | _ => .error (.state path .notObject)

/-- Gives outputs without a type the type of that name; also counts them. -/
def assignTypes (types : SortedMap Value) : List Output → Nat × List Output
  | [] => (0, [])
  | output :: rest =>
    let (count, rest) := assignTypes types rest
    match output.type, types.get? output.name with
    | none, some type => (count + 1, { output with type := some type } :: rest)
    | _, _ => (count, output :: rest)

/-- Finds types for the outputs that have none. The state is retrieved, once, only when there is
such an output; with the answer comes the number of outputs that got a type. -/
def resolveTypes {m : Type → Type} [Monad m] (retrieve : String → m (Except Error ByteArray))
    (path : String) (outputs : List Output) : m (Except Error (Nat × List Output)) := do
  -- Retrieving a state is slow and may fail, so it is not done for nothing.
  if outputs.all fun output => output.type.isSome then return .ok (0, outputs)
  match ← retrieve path with
  | .error error => return .error error
  | .ok bytes => return (outputTypes path bytes).map fun types => assignTypes types outputs

end State
end Blueprint
