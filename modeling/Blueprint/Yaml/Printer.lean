import Blueprint.Yaml.Schema

/-!
# Writing YAML

A value in block style with an indent of two blanks. A sequence in a mapping is not indented; after
a dash, or after the colon of a key that is written with a question mark, a collection starts on the
same line. Texts are written plainly where that reads back as the text, or else in quotation marks;
texts of several lines are written as literal scalars.
-/

namespace Blueprint.Yaml.Printer

/-- The characters that end lines. -/
def isLineEnd (c : Char) : Bool :=
  c == '\n' || c == '\r' || c == '\x85' || c == '\u2028' || c == '\u2029'

/-- Characters that are written as themselves. -/
def isPrintable (c : Char) : Bool :=
  let n := c.toNat
  n == 0x0A || (0x20 ≤ n && n ≤ 0x7E) || (0xA0 ≤ n && n ≤ 0xD7FF) ||
    (0xE000 ≤ n && n ≤ 0xFFFD && n != 0xFEFF) || 0x10000 ≤ n

/-- Whether a blank, a line end or the end of the text comes next. -/
def endsWord : List Char → Bool
  | [] => true
  | c :: _ => c == ' ' || c == '\t' || isLineEnd c

/-- Whether a text starts like something other than a plain scalar. -/
def startsSpecial (text : List Char) : Bool :=
  match text with
  | [] => false
  | c :: rest =>
    ['-', '-', '-'].isPrefixOf text || ['.', '.', '.'].isPrefixOf text ||
      c ∈ ['#', ',', '[', ']', '\x7b', '\x7d', '&', '*', '!', '|', '>', '\'', '"', '%', '@', '`'] ||
      (c ∈ ['?', ':', '-'] && endsWord rest)

/-- Whether a text holds, after its first character, a mark that would end a plain scalar: a colon
before a blank, or a number sign after one. -/
def holdsMark : (afterBlank : Bool) → List Char → Bool
  | _, [] => false
  | afterBlank, c :: rest =>
    (c == ':' && endsWord rest) || (c == '#' && afterBlank) || holdsMark (endsWord [c]) rest

/-- Whether the first of two characters is a blank and the second ends a line, somewhere. -/
def holdsPair (first second : Char → Bool) : List Char → Bool
  | a :: b :: rest => (first a && second b) || holdsPair first second (b :: rest)
  | _ => false

def isMultiline (text : List Char) : Bool :=
  text.any isLineEnd

/-- Whether a text needs escapes: it has characters that are not printable, or a blank before the
end of a line. -/
def needsEscapes (text : List Char) : Bool :=
  text.any (fun c => !isPrintable c) || holdsPair (· == ' ') isLineEnd text

/-- Whether a text may be written plainly. -/
def mayBePlain (text : List Char) : Bool :=
  let blankEnds := text.head? == some ' ' || text.getLast? == some ' '
  !blankEnds && !isMultiline text && !needsEscapes text && !startsSpecial text &&
    !(match text with
      | [] => false
      | c :: rest => holdsMark (endsWord [c]) rest)

/-- Whether a text may stand between single quotation marks. -/
def mayBeSingleQuoted (text : List Char) : Bool :=
  !needsEscapes text && !holdsPair isLineEnd (· == ' ') text

/-- Whether a text may be a literal scalar. -/
def mayBeLiteral (text : List Char) : Bool :=
  !needsEscapes text && !(text.getLast? == some ' ')

def blanks (count : Nat) : List Char :=
  List.replicate count ' '

/-- The lines between single quotation marks. What follows a line end is indented. -/
def quotedLines (indent : Nat) : (lineStart : Bool) → List Char → List Char
  | lineStart, [] => if lineStart then blanks indent else []
  | lineStart, c :: rest =>
    if isLineEnd c then c :: quotedLines indent true rest
    else (if lineStart then blanks indent else []) ++
      (if c = '\'' then ['\'', '\''] else [c]) ++ quotedLines indent false rest

def singleQuoted (indent : Nat) (text : List Char) : List Char :=
  '\'' :: quotedLines indent false text ++ ['\'']

/-- A character between double quotation marks. -/
def escaped (c : Char) : List Char :=
  let n := c.toNat
  if isPrintable c && !isLineEnd c && c != '"' && c != '\\' then [c]
  else if n = 0 then ['\\', '0']
  else if n = 7 then ['\\', 'a']
  else if n = 8 then ['\\', 'b']
  else if n = 9 then ['\\', 't']
  else if n = 0x0A then ['\\', 'n']
  else if n = 0x0B then ['\\', 'v']
  else if n = 0x0C then ['\\', 'f']
  else if n = 0x0D then ['\\', 'r']
  else if n = 0x1B then ['\\', 'e']
  else if n = 0x22 then ['\\', '"']
  else if n = 0x5C then ['\\', '\\']
  else if n = 0x85 then ['\\', 'N']
  else if n = 0x2028 then ['\\', 'L']
  else if n = 0x2029 then ['\\', 'P']
  else if n ≤ 0xFF then '\\' :: 'x' :: Text.upperHex 2 n
  else if n ≤ 0xFFFF then '\\' :: 'u' :: Text.upperHex 4 n
  else '\\' :: 'U' :: Text.upperHex 8 n

def doubleQuoted (text : List Char) : List Char :=
  '"' :: text.flatMap escaped ++ ['"']

def literalLines (indent : Nat) : (lineStart : Bool) → List Char → List Char
  | _, [] => []
  | lineStart, c :: rest =>
    if isLineEnd c then c :: literalLines indent true rest
    else (if lineStart then blanks indent else []) ++ c :: literalLines indent false rest

/-- A literal scalar: a header that tells what becomes of line ends at its end, and its lines. -/
def literal (indent : Nat) (text : List Char) : List Char :=
  let hint := match text with
    | [] => []
    | c :: _ => if c == ' ' || isLineEnd c then ['2'] else []
  let chomp := match text.reverse with
    | [] => ['-']
    | [c] => if isLineEnd c then ['+'] else ['-']
    | c :: d :: _ => if isLineEnd c then (if isLineEnd d then ['+'] else []) else ['-']
  '|' :: hint ++ chomp ++ '\n' :: literalLines indent true text

/-- Whether a text is written plainly where its characters allow it: it does not read as anything
else, nor look like a number. -/
def readsAsText (text : List Char) : Bool :=
  isPlainText text && !isPaddedDigits text

/-- A text as a scalar. Lines after the first one are indented. -/
def scalarText (indent : Nat) (s : String) : List Char :=
  let text := s.toList
  let quoted :=
    if mayBeSingleQuoted text then singleQuoted indent text else doubleQuoted text
  if '\n' ∈ text then if mayBeLiteral text then literal indent text else doubleQuoted text
  else if readsAsText text && mayBePlain text then text
  else quoted

/-- How long a key may be, in bytes, to be written without a question mark. -/
def keyLimit : Nat := 128

/-- Whether a key is written without a question mark. -/
def isSimpleKey (key : String) : Bool :=
  !isMultiline key.toList && key.utf8ByteSize ≤ keyLimit

/-- Numbers have no plus sign in their exponent. -/
def numberLayout : Binary64.Layout := ⟨false⟩

/-- Puts a line behind a text that may end with a line end of its own. -/
def nextLine (text line : List Char) : List Char :=
  if (text.getLast?.map isLineEnd).getD false then text ++ line else text ++ '\n' :: line

/-- An entry of a mapping whose keys start in a column, from its value as it stands after a simple
key and as it stands after a mark: a key that is not simple is written with a question mark. -/
def entryText (column : Nat) (key : String) (afterKey afterMark : List Char) : List Char :=
  if isSimpleKey key then scalarText (column + 2) key ++ ':' :: afterKey
  else nextLine ('?' :: ' ' :: scalarText (column + 2) key)
    (blanks column ++ ':' :: ' ' :: afterMark)

mutual
/-- A value after the colon of a simple key of a mapping with an indentation. -/
def afterKey (indent : Nat) : Value → List Char
  | .array [] => " []".toList
  | .array values => '\n' :: blanks indent ++ items indent values
  | .object [] => " \x7b\x7d".toList
  | .object entries => '\n' :: blanks (indent + 2) ++ fields (indent + 2) entries
  | .null => " null".toList
  | .bool b => ' ' :: (if b then "true" else "false").toList
  | .number n => ' ' :: n.toText numberLayout
  | .string s => ' ' :: scalarText (indent + 2) s

/-- A value after a dash or another mark of two characters, from a column on. -/
def afterMark (column : Nat) : Value → List Char
  | .array [] => ['[', ']']
  | .array values => items column values
  | .object [] => ['\x7b', '\x7d']
  | .object entries => fields column entries
  | .null => "null".toList
  | .bool b => (if b then "true" else "false").toList
  | .number n => n.toText numberLayout
  | .string s => scalarText column s

def items (column : Nat) : List Value → List Char
  | [] => []
  | [value] => '-' :: ' ' :: afterMark (column + 2) value
  | value :: rest =>
    nextLine ('-' :: ' ' :: afterMark (column + 2) value) (blanks column ++ items column rest)

def fields (column : Nat) : List (String × Value) → List Char
  | [] => []
  | [(key, value)] => entryText column key (afterKey column value) (afterMark (column + 2) value)
  | (key, value) :: rest =>
    nextLine (entryText column key (afterKey column value) (afterMark (column + 2) value))
      (blanks column ++ fields column rest)
end

end Printer

def render (value : Value) : String :=
  let text := match value with
    | .string s => Printer.scalarText 2 s
    | value => Printer.afterMark 0 value
  String.ofList (Printer.nextLine text [])

end Blueprint.Yaml
