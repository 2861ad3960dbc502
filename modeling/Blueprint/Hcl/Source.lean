import Blueprint.Hcl.Expr
import Blueprint.Text.Escape
import Blueprint.Text.Identifier

/-!
# Reading source text

A reader takes a source apart from the front. The source remembers what was read, so that a
template can keep the text of its interpolations; a reader may put another spelling of what it read
in its place (`spelledAs`).
-/

namespace Blueprint.Hcl

/-- What is still to be read, and what was read, last character first. -/
structure Source where
  rest : List Char
  read : List Char
deriving Repr

/-- Reads a part of a source, or refuses it. -/
abbrev Reader (α : Type) := StateT Source Option α

namespace Reader

variable {α : Type}

def ahead : Reader (List Char) :=
  fun source => some (source.rest, source)

/-- The next character, which stays ahead. -/
def peek? : Reader (Option Char) :=
  fun source => some (source.rest.head?, source)

def charIf (test : Char → Bool) : Reader Char := fun source =>
  match source.rest with
  | [] => none
  | c :: rest => if test c then some (c, ⟨rest, c :: source.read⟩) else none

def char (c : Char) : Reader Unit := do
  let _ ← charIf (· == c)

/-- Reads the longest run of characters that satisfy a test. -/
def span (test : Char → Bool) : Reader (List Char) := fun source =>
  let taken := source.rest.takeWhile test
  some (taken, ⟨source.rest.dropWhile test, taken.reverse ++ source.read⟩)

def take (count : Nat) : Reader (List Char) := fun source =>
  let taken := source.rest.take count
  some (taken, ⟨source.rest.drop count, taken.reverse ++ source.read⟩)

def isAhead (text : String) : Reader Bool := do
  return text.toList.isPrefixOf (← ahead)

def text (text : String) : Reader Unit := do
  if ← isAhead text then
    let _ ← take text.toList.length
  else failure

/-- Reads a given text if it stands ahead, and says whether it did. -/
def text? (text : String) : Reader Bool := do
  if ← isAhead text then
    let _ ← take text.toList.length
    return true
  else return false

/-- Tries a reader; where it refuses, nothing was read. -/
def attempt? (reader : Reader α) : Reader (Option α) := fun source =>
  match reader source with
  | some (a, after) => some (some a, after)
  | none => some (none, source)

/-- Runs a reader and puts the given spelling in the place of the text that it read. -/
def spelledAs (reader : Reader α) (spelling : α → List Char) : Reader α := fun source =>
  match reader ⟨source.rest, []⟩ with
  | some (a, after) => some (a, ⟨after.rest, (spelling a).reverse ++ source.read⟩)
  | none => none

/-- Runs a reader and also returns the text that it read. -/
def withText (reader : Reader α) : Reader (α × List Char) := fun source =>
  match reader ⟨source.rest, []⟩ with
  | some (a, after) => some ((a, after.read.reverse), ⟨after.rest, after.read ++ source.read⟩)
  | none => none

/-- Whether a character may start a name. -/
def isNameStart (c : Char) : Bool :=
  Text.isIdentifierStart c || c == '_'

/-- Whether a character may continue a name. -/
def isNameRest (c : Char) : Bool :=
  Text.isIdentifierRest c || c == '-'

def name : Reader String := do
  let first ← charIf isNameStart
  let rest ← span isNameRest
  return String.ofList (first :: rest)

def keyword (expected : String) : Reader Unit := do
  if (← name) = expected then return () else failure

/-- The characters that may follow a line comment: none, or a line end. -/
def endsLine : List Char → Bool
  | [] => true
  | '\n' :: _ => true
  | '\r' :: '\n' :: _ => true
  | _ => false

/-- Reads a comment up to the end of its line, which stays ahead. -/
def lineComment : Reader Unit := do
  if !(← text? "#") then text "//"
  let _ ← span fun c => c != '\n' && c != '\r'
  if endsLine (← ahead) then return () else failure

/-- The rest of a text after the end of a comment between marks, and what stands before it. -/
def splitComment : List Char → Option (List Char × List Char)
  | [] => none
  | [_] => none
  | '*' :: '/' :: rest => some (['*', '/'], rest)
  | c :: rest => (splitComment rest).map fun (comment, rest) => (c :: comment, rest)

/-- Reads a comment between marks. -/
def inlineComment : Reader Unit := do
  text "/*"
  fun source => (splitComment source.rest).map fun (comment, rest) =>
    ((), ⟨rest, comment.reverse ++ source.read⟩)

/-- Reads blanks and comments; with `acrossLines` also line ends and line comments. The fuel bounds
the number of pieces, each of which has a character. -/
def blanksFrom (acrossLines : Bool) : (fuel : Nat) → Reader Unit
  | 0 => return ()
  | fuel + 1 => do
    match ← peek? with
    | some ' ' | some '\t' =>
      let _ ← span fun c => c == ' ' || c == '\t'
      blanksFrom acrossLines fuel
    | some '/' =>
      if ← isAhead "/*" then
        inlineComment
        blanksFrom acrossLines fuel
      else if acrossLines && (← isAhead "//") then
        lineComment
        blanksFrom acrossLines fuel
      else return ()
    | some '#' =>
      if acrossLines then
        lineComment
        blanksFrom acrossLines fuel
      else return ()
    | some '\n' | some '\r' =>
      if acrossLines then
        let _ ← span fun c => c == '\n' || c == '\r'
        blanksFrom acrossLines fuel
      else return ()
    | _ => return ()

/-- Reads blanks and comments; with `acrossLines` also line ends and line comments. -/
def blanks (acrossLines : Bool) : Reader Unit := fun source =>
  blanksFrom acrossLines (source.rest.length + 1) source

def lineEnd : Reader Unit := do
  let _ ← text? "\r"
  char '\n'

end Reader
end Blueprint.Hcl
