import Blueprint.Hcl.Parser

/-!
# Reading bodies

A body is a sequence of attributes and blocks, each on lines of its own. A block is written over
several lines, or on one line with at most one attribute. No body has two attributes of one name.
-/

namespace Blueprint.Hcl

namespace Parser

open Reader

/-- Reads what may follow a statement on its line, and the end of the line. -/
def statementEnd : Reader Unit := do
  blanks false
  let _ ← attempt? lineComment
  if !(← ahead).isEmpty then lineEnd

def attributeValue : Reader Expr := do
  char '='
  if ← isAhead "=" then failure
  blanks false
  fun source => expr false (fuelFor source.rest) source

/-- Reads a label of a block: a name or a plain text in double quotes. -/
def label : Reader String := do
  if ← isAhead "\"" then
    let pieces ← fun source => quotedPieces (fuelFor source.rest) source
    match Template.literal? pieces with
    | some text => return String.ofList text
    | none => failure
  else name

/-- Reads the labels of a block up to its opening brace. -/
def labels : (fuel : Nat) → Reader (List String)
  | 0 => failure
  | fuel + 1 => do
    blanks false
    if ← text? "\x7b" then return []
    let first ← label
    return first :: (← labels fuel)

def hasAttribute (body : Body) (name : String) : Bool :=
  body.any fun
    | .assign other _ => other == name
    | .block .. => false

mutual

/-- Reads statements up to the end of the source or a closing brace, after the ones read before,
of which the last one comes first. -/
def statements : (fuel : Nat) → (before : Body) → Reader Body
  | 0, _ => failure
  | fuel + 1, before => do
    blanks true
    match ← peek? with
    | none | some '}' => return before.reverse
    | some _ =>
      let statement ← statement fuel
      if let .assign name _ := statement then
        if hasAttribute before name then failure
      statementEnd
      statements fuel (statement :: before)

def statement : (fuel : Nat) → Reader Structure
  | 0 => failure
  | fuel + 1 => do
    let kind ← name
    blanks false
    if ← isAhead "=" then return .assign kind (← attributeValue)
    else
      let labels ← labels (fuel + 1)
      return .block kind labels (← blockBody fuel)

def blockBody : (fuel : Nat) → Reader Body
  | 0 => failure
  | fuel + 1 => do
    blanks false
    let multiline? ← attempt? do
      let _ ← attempt? lineComment
      lineEnd
    if multiline?.isSome then
      let body ← statements fuel []
      char '\x7d'
      return body
    else if ← text? "\x7d" then return []
    else
      let first ← name
      blanks false
      let value ← attributeValue
      blanks false
      char '\x7d'
      return [.assign first value]

end

end Parser

def Body.read? (text : String) : Option Body :=
  let characters := text.toList
  match Parser.statements (Parser.fuelFor characters) [] ⟨characters, []⟩ with
  | some (body, ⟨[], _⟩) => some body
  | _ => none

end Blueprint.Hcl
