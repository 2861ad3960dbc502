import Blueprint.Json.Syntax
import Blueprint.Text.Escape

/-!
# Writing JSON

A value as JSON, either without any blanks or with a line for each item and field and an indent of
two blanks a level.
-/

namespace Blueprint.Json

/-- Positive exponents are written with a plus sign. -/
def numberLayout : Binary64.Layout := ⟨true⟩

def quote (text : List Char) : List Char :=
  '"' :: Text.escape text ++ ['"']

/-- The start of a line at a level of indentation. -/
def newline (level : Nat) : List Char :=
  '\n' :: List.replicate (2 * level) ' '

mutual
def compact : Value → List Char
  | .null => "null".toList
  | .bool b => (if b then "true" else "false").toList
  | .number n => n.toText numberLayout
  | .string s => quote s.toList
  | .array items => '[' :: compactItems items ++ [']']
  | .object fields => '\x7b' :: compactFields fields ++ ['\x7d']

def compactItems : List Value → List Char
  | [] => []
  | [item] => compact item
  | item :: rest => compact item ++ ',' :: compactItems rest

def compactFields : List (String × Value) → List Char
  | [] => []
  | [(name, value)] => quote name.toList ++ ':' :: compact value
  | (name, value) :: rest =>
    quote name.toList ++ ':' :: compact value ++ ',' :: compactFields rest
end

mutual
/-- A value over several lines, the first of which is at a level of indentation. -/
def pretty (level : Nat) : Value → List Char
  | .array [] => ['[', ']']
  | .array items => '[' :: prettyItems (level + 1) items ++ newline level ++ [']']
  | .object [] => ['\x7b', '\x7d']
  | .object fields => '\x7b' :: prettyFields (level + 1) fields ++ newline level ++ ['\x7d']
  | .null => "null".toList
  | .bool b => (if b then "true" else "false").toList
  | .number n => n.toText numberLayout
  | .string s => quote s.toList

def prettyItems (level : Nat) : List Value → List Char
  | [] => []
  | [item] => newline level ++ pretty level item
  | item :: rest => newline level ++ pretty level item ++ ',' :: prettyItems level rest

def prettyFields (level : Nat) : List (String × Value) → List Char
  | [] => []
  | [(name, value)] => newline level ++ quote name.toList ++ [':', ' '] ++ pretty level value
  | (name, value) :: rest =>
    newline level ++ quote name.toList ++ [':', ' '] ++ pretty level value ++
      ',' :: prettyFields level rest
end

def render (spread : Bool) (value : Value) : String :=
  String.ofList (if spread then pretty 0 value else compact value)

end Blueprint.Json
