import Blueprint.Hcl.Source

/-!
# Templates

A template is a sequence of literal pieces and pieces of code, the interpolations and directives.
Literal text may not look like code, so a marker in it is written twice. A heredoc can take the
common indentation of its lines away.
-/

namespace Blueprint.Hcl

/-- A piece of a template. -/
inductive Piece where
  | literal (text : List Char)
  | code (text : List Char)
deriving DecidableEq, Repr

namespace Template

/-- Literal text with the first character of each marker of code doubled. -/
def escapeMarkers : List Char → List Char
  | [] => []
  | '$' :: '{' :: rest => '$' :: '$' :: '{' :: escapeMarkers rest
  | '%' :: '{' :: rest => '%' :: '%' :: '{' :: escapeMarkers rest
  | c :: rest => c :: escapeMarkers rest

def quote (text : List Char) : List Char :=
  '"' :: Text.escape (escapeMarkers text) ++ ['"']

/-- Joins literal pieces that stand side by side, and drops empty ones. -/
def join : List Piece → List Piece
  | [] => []
  | .code text :: rest => .code text :: join rest
  | .literal text :: rest =>
    match join rest with
    | .literal more :: rest => .literal (text ++ more) :: rest
    | rest => if text.isEmpty then rest else .literal text :: rest

/-- The text of a template: literal pieces with doubled markers, code as it is. -/
def text (pieces : List Piece) : List Char :=
  pieces.flatMap fun
    | .literal text => escapeMarkers text
    | .code text => text

def quoted (pieces : List Piece) : List Char :=
  '"' :: (pieces.flatMap fun
    | .literal text => Text.escape (escapeMarkers text)
    | .code text => text) ++ ['"']

/-- The text of a template that is only one literal piece. -/
def literal? : List Piece → Option (List Char)
  | [] => some []
  | [.literal text] => some text
  | _ => none

def lines (text : List Char) : List (List Char) :=
  let pieces := Text.splitAtChar '\n' text
  let pieces := if pieces.getLast? = some [] then pieces.dropLast else pieces
  pieces.map fun line => if line.getLast? = some '\r' then line.dropLast else line

/-- The least indentation of the lines of a text that are not empty. -/
def leastIndent? (skipFirst : Bool) (text : List Char) : Option Nat :=
  let counted := (lines text).drop (if skipFirst then 1 else 0)
  let indents := (counted.filter fun line => !line.isEmpty).map fun line =>
    (line.takeWhile Text.isBlank).length
  indents.min?

/-- Takes an indentation away from every line that is not empty. -/
def dropIndent (skipFirst : Bool) (indent : Nat) (text : List Char) : List Char :=
  if indent = 0 ∨ text.isEmpty then text
  else
    let strip (line : List Char) : List Char := line.drop indent
    let all := lines text
    let stripped := if skipFirst then all.take 1 ++ (all.drop 1).map strip else all.map strip
    let joined := List.intercalate ['\n'] stripped
    if text.getLast? = some '\n' then joined ++ ['\n'] else joined

/-- The least indentation of the literal pieces; a piece after code starts within a line. -/
def leastIndentOf? : (afterCode : Bool) → List Piece → Option Nat
  | _, [] => none
  | _, .code _ :: rest => leastIndentOf? true rest
  | afterCode, .literal text :: rest =>
    match leastIndent? afterCode text, leastIndentOf? afterCode rest with
    | some a, some b => some (min a b)
    | some a, none => some a
    | none, b => b

/-- Takes an indentation away from the literal pieces. -/
def dropIndentOf (indent : Nat) : (afterCode : Bool) → List Piece → List Piece
  | _, [] => []
  | _, .code text :: rest => .code text :: dropIndentOf indent true rest
  | afterCode, .literal text :: rest =>
    .literal (dropIndent afterCode indent text) :: dropIndentOf indent afterCode rest

/-- Takes the common indentation of the literal lines away. -/
def dedent (pieces : List Piece) : List Piece :=
  match leastIndentOf? false pieces with
  | none => pieces
  | some indent => dropIndentOf indent false pieces

/-- The text of a heredoc up to the line that starts, after blanks, with its delimiter, and what
follows the delimiter. -/
def splitHeredoc (delimiter : List Char) :
    (lineStart : Bool) → List Char → Option (List Char × List Char)
  | lineStart, [] => if lineStart ∧ delimiter.isEmpty then some ([], []) else none
  | lineStart, c :: rest =>
    let line := (c :: rest).dropWhile fun c => c == ' ' || c == '\t'
    if lineStart ∧ delimiter.isPrefixOf line then some ([], line.drop delimiter.length)
    else (splitHeredoc delimiter (c == '\n') rest).map fun (text, after) => (c :: text, after)

end Template
end Blueprint.Hcl
