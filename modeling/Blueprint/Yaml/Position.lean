import Blueprint.Text.Basic

/-!
# Places in a YAML text

A place knows its line and column, since the structure of YAML hangs on them, and whether the key of
a block mapping may start there (`fresh`): at the start of a line and after the marks of block
collections.
-/

namespace Blueprint.Yaml

/-- A place in a text. -/
structure Position where
  rest : List Char
  line : Nat := 0
  column : Nat := 0
  /-- The number of characters before this place. -/
  index : Nat := 0
  fresh : Bool := true
deriving Repr

/-- Whether a character may occur in a text at all. -/
def isAllowed (c : Char) : Bool :=
  let n := c.toNat
  n == 0x09 || n == 0x0A || n == 0x0D || (0x20 ≤ n && n ≤ 0x7E) || n == 0x85 ||
    (0xA0 ≤ n && n ≤ 0xD7FF) || (0xE000 ≤ n && n ≤ 0xFFFD) || 0x10000 ≤ n

/-- The characters that end a line. -/
def isBreak (c : Char) : Bool :=
  c == '\n' || c == '\r' || c == '\x85' || c == '\u2028' || c == '\u2029'

/-- Blanks within a line. -/
def isSpace (c : Char) : Bool :=
  c == ' ' || c == '\t'

/-- Letters, digits, underscore and hyphen, of which the names of anchors and tags consist. -/
def isWordChar (c : Char) : Bool :=
  c.isAlphanum || c == '_' || c == '-'

/-- Whether a blank, the end of a line or the end of the text comes next. -/
def endsWord : List Char → Bool
  | [] => true
  | c :: _ => isSpace c || isBreak c

namespace Position

/-- Whether a given character comes next. -/
def at? (p : Position) (c : Char) : Bool :=
  p.rest.head? == some c

/-- Whether a mark comes next that stands for itself only before a blank. -/
def atMark (p : Position) (c : Char) : Bool :=
  match p.rest with
  | [] => false
  | first :: rest => first == c && endsWord rest

/-- Goes over a number of characters within a line. -/
def advance (p : Position) (count : Nat) : Position :=
  { p with rest := p.rest.drop count, column := p.column + count, index := p.index + count }

/-- Goes over the end of a line; also returns the line end that is kept of it. -/
def breakLine? (p : Position) : Option (List Char × Position) :=
  let next (kept : Char) (rest : List Char) (length : Nat) : Option (List Char × Position) :=
    some ([kept], { p with rest, line := p.line + 1, column := 0, index := p.index + length })
  match p.rest with
  | '\r' :: '\n' :: rest => next '\n' rest 2
  | '\n' :: rest | '\r' :: rest | '\x85' :: rest => next '\n' rest 1
  | '\u2028' :: rest => next '\u2028' rest 1
  | '\u2029' :: rest => next '\u2029' rest 1
  | _ => none

/-- Whether a mark of three characters that starts or ends a document stands here. -/
def atDocumentMark (p : Position) (mark : List Char) : Bool :=
  p.column == 0 && mark.isPrefixOf p.rest && endsWord (p.rest.drop 3)

/-- Whether a document starts or ends here. -/
def atDocumentBoundary (p : Position) : Bool :=
  p.atDocumentMark ['-', '-', '-'] || p.atDocumentMark ['.', '.', '.']

/-- Whether nothing is left of the document. -/
def atDocumentEnd (p : Position) : Bool :=
  p.rest.isEmpty || p.atDocumentBoundary

/-- Goes over the characters that satisfy a test, which must not end lines. -/
def skipWhile (p : Position) (test : Char → Bool) : Position :=
  p.advance (p.rest.takeWhile test).length

/-- Goes over a comment, if one starts here. -/
def skipComment (p : Position) : Position :=
  if p.at? '#' then p.skipWhile fun c => !isBreak c else p

/-- Goes over blanks, comments and line ends. Outside of flow collections a line end makes the place
fresh, and a fresh place is not reached over a tab. -/
def skipFrom (inFlow : Bool) : (fuel : Nat) → Position → Position
  | 0, p => p
  | fuel + 1, p =>
    let p := p.skipWhile fun c => c == ' ' || (c == '\t' && (inFlow || !p.fresh))
    let p := p.skipComment
    match p.breakLine? with
    | some (_, p) => skipFrom inFlow fuel { p with fresh := p.fresh || !inFlow }
    | none => p

/-- Goes to the next character that says something. -/
def skip (inFlow : Bool) (p : Position) : Position :=
  skipFrom inFlow (p.rest.length + 1) p

end Position
end Blueprint.Yaml
