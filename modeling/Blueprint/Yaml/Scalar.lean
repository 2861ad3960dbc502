import Blueprint.Yaml.Position

/-!
# Scalars in a YAML text

Plain, quoted and block scalars. A line end within a plain or quoted scalar is folded: one line end
is a blank, and of several the first is dropped. The fuel of the loops bounds the number of words or
lines and is taken from the length of the text.
-/

namespace Blueprint.Yaml

/-- How a scalar is written. -/
inductive Style where
  | plain
  | singleQuoted
  | doubleQuoted
  | literal
  | folded
deriving DecidableEq, Repr

/-- What stands between two words of a scalar. -/
structure Gap where
  blanks : List Char := []
  /-- Whether a line ended, and the first line end unless it was escaped. -/
  broken : Bool := false
  first : List Char := []
  /-- The line ends after the first one. -/
  more : List Char := []
deriving Repr

namespace Gap

/-- What a gap contributes to the text of a scalar. -/
def folded (gap : Gap) : List Char :=
  if gap.broken then
    if gap.first = ['\n'] then (if gap.more.isEmpty then [' '] else gap.more)
    else gap.first ++ gap.more
  else gap.blanks

/-- Reads blanks and line ends. Where indentation is due, a tab may not stand before `margin`. -/
def readFrom (margin : Nat) : (fuel : Nat) → Gap → Position → Option (Gap × Position)
  | 0, _, _ => none
  | fuel + 1, gap, p =>
    match p.rest with
    | c :: _ =>
      if isSpace c then
        if gap.broken then
          if c = '\t' ∧ p.column < margin then none else readFrom margin fuel gap (p.advance 1)
        else readFrom margin fuel { gap with blanks := gap.blanks ++ [c] } (p.advance 1)
      else match p.breakLine? with
        | some (lineEnd, p) =>
          if gap.broken then readFrom margin fuel { gap with more := gap.more ++ lineEnd } p
          else readFrom margin fuel { gap with broken := true, blanks := [], first := lineEnd } p
        | none => some (gap, p)
    | [] => some (gap, p)

/-- Reads blanks and line ends after a gap that was begun. -/
def read (margin : Nat) (gap : Gap) (p : Position) : Option (Gap × Position) :=
  readFrom margin (p.rest.length + 1) gap p

end Gap

namespace Scalar

/-- The characters that end a plain scalar in a flow collection. -/
def isFlowIndicator (c : Char) : Bool :=
  c == ',' || c == '[' || c == ']' || c == '{' || c == '}'

/-- Reads a word of a plain scalar. In a flow collection a colon may not stand directly before a
mark of the collection. -/
def plainWord? (inFlow : Bool) : List Char → Option (List Char)
  | [] => some []
  | c :: rest =>
    if isSpace c || isBreak c then some []
    else if c == ':' && endsWord rest then some []
    else if inFlow && c == ':' && (rest.head?.map fun d => isFlowIndicator d || d == '?').getD false
    then none
    else if inFlow && isFlowIndicator c then some []
    else (plainWord? inFlow rest).map (c :: ·)

/-- Reads the words of a plain scalar; `gap` stands before the next one. -/
def plainFrom (inFlow : Bool) (margin : Nat) :
    (fuel : Nat) → List Char → Gap → Position → Option (List Char × Position)
  | 0, _, _, _ => none
  | fuel + 1, text, gap, p =>
    let done := some (text, { p with fresh := p.fresh || gap.broken })
    if p.atDocumentBoundary || p.at? '#' then done
    else match plainWord? inFlow p.rest with
      | none => none
      | some [] => done
      | some word =>
        let text := text ++ gap.folded ++ word
        let p := p.advance word.length
        if p.rest.isEmpty || !endsWord p.rest then some (text, p)
        else match Gap.read margin {} p with
          | none => none
          | some (gap, p) =>
            if !inFlow && p.column < margin then
              some (text, { p with fresh := p.fresh || gap.broken })
            else plainFrom inFlow margin fuel text gap p

/-- Reads a plain scalar whose further lines start at `margin` or behind it. -/
def plain? (inFlow : Bool) (margin : Nat) (p : Position) : Option (List Char × Position) :=
  plainFrom inFlow margin (p.rest.length + 1) [] {} { p with fresh := false }

def startsPlain (inFlow : Bool) (p : Position) : Bool :=
  match p.rest with
  | [] => false
  | c :: rest =>
    if c == '-' then !endsWord rest
    else if c == '?' || c == ':' then !inFlow && !endsWord rest
    else !(isSpace c || isBreak c || isFlowIndicator c || c == '#' || c == '&' || c == '*' ||
      c == '!' || c == '|' || c == '>' || c == '\'' || c == '"' || c == '%' || c == '@' || c == '`')

/-- Reads a word between single quotation marks; the flag tells whether the closing one was read. -/
def singleWord : List Char → List Char × Nat × Bool
  | [] => ([], 0, false)
  | '\'' :: '\'' :: rest =>
    let (word, length, closed) := singleWord rest
    ('\'' :: word, length + 2, closed)
  | c :: rest =>
    if c = '\'' then ([], 1, true)
    else if isSpace c || isBreak c then ([], 0, false)
    else
      let (word, length, closed) := singleWord rest
      (c :: word, length + 1, closed)

/-- Reads the words between single quotation marks. -/
def singleFrom : (fuel : Nat) → List Char → Position → Option (List Char × Position)
  | 0, _, _ => none
  | fuel + 1, text, p =>
    if p.atDocumentBoundary || p.rest.isEmpty then none
    else
      let (word, length, closed) := singleWord p.rest
      let text := text ++ word
      let p := p.advance length
      if closed then some (text, p)
      else match Gap.read 0 {} p with
        | none => none
        | some (gap, p) => singleFrom fuel (text ++ gap.folded) p

/-- The character of an escape of one letter. -/
def escapeOf? : Char → Option Char
  | '0' => some '\x00'
  | 'a' => some '\x07'
  | 'b' => some '\x08'
  | 't' | '\t' => some '\t'
  | 'n' => some '\n'
  | 'v' => some '\x0b'
  | 'f' => some '\x0c'
  | 'r' => some '\r'
  | 'e' => some '\x1b'
  | ' ' => some ' '
  | '"' => some '"'
  | '/' => some '/'
  | '\\' => some '\\'
  | 'N' => some '\x85'
  | '_' => some '\xa0'
  | 'L' => some '\u2028'
  | 'P' => some '\u2029'
  | _ => none

/-- The number of digits of an escape by number. -/
def escapeWidth? : Char → Option Nat
  | 'x' => some 2
  | 'u' => some 4
  | 'U' => some 8
  | _ => none

/-- How a word between double quotation marks ends. -/
inductive WordEnd where
  | closed
  | space
  | escapedLineEnd
deriving DecidableEq, Repr

/-- Reads a word between double quotation marks. -/
def doubleWord? : (fuel : Nat) → List Char → Option (List Char × Nat × WordEnd)
  | 0, _ => none
  | _ + 1, [] => some ([], 0, .space)
  | _ + 1, '"' :: _ => some ([], 1, .closed)
  | fuel + 1, '\\' :: c :: rest =>
    if isBreak c then some ([], 1, .escapedLineEnd)
    else match escapeOf? c with
      | some meant => (doubleWord? fuel rest).map fun (word, length, ending) =>
          (meant :: word, length + 2, ending)
      | none =>
        match escapeWidth? c with
        | none => none
        | some width =>
          if rest.length < width then none
          else match Text.natOfDigits? 16 (rest.take width) with
            | none => none
            | some value =>
              if value.isValidChar then
                (doubleWord? fuel (rest.drop width)).map fun (word, length, ending) =>
                  (Char.ofNat value :: word, length + width + 2, ending)
              else none
  | fuel + 1, c :: rest =>
    if isSpace c || isBreak c then some ([], 0, .space)
    else if c = '\\' then none
    else (doubleWord? fuel rest).map fun (word, length, ending) =>
      (c :: word, length + 1, ending)

/-- Reads the words between double quotation marks. -/
def doubleFrom : (fuel : Nat) → List Char → Position → Option (List Char × Position)
  | 0, _, _ => none
  | fuel + 1, text, p =>
    if p.atDocumentBoundary || p.rest.isEmpty then none
    else match doubleWord? (p.rest.length + 1) p.rest with
      | none => none
      | some (word, length, ending) =>
        let text := text ++ word
        let p := p.advance length
        let gap? := match ending with
          | .closed => none
          | .space => some (({} : Gap), p)
          | .escapedLineEnd =>
            p.breakLine?.map fun (_, p) => ({ broken := true }, p)
        match gap? with
        | none => some (text, p)
        | some (gap, p) =>
          match Gap.read 0 gap p with
          | none => none
          | some (gap, p) => doubleFrom fuel (text ++ gap.folded) p

/-- Reads a scalar in quotation marks. -/
def quoted? (p : Position) : Option (Style × List Char × Position) :=
  let inside := { p.advance 1 with fresh := false }
  if p.at? '\'' then
    (singleFrom (p.rest.length + 1) [] inside).map fun (text, p) => (.singleQuoted, text, p)
  else
    (doubleFrom (p.rest.length + 1) [] inside).map fun (text, p) => (.doubleQuoted, text, p)

/-- What happens to the line ends at the end of a block scalar. -/
inductive Chomp where
  | strip
  | clip
  | keep
deriving DecidableEq, Repr

/-- The header of a block scalar. -/
structure BlockHeader where
  chomp : Chomp := .clip
  /-- The indentation relative to the enclosing block, where it is given. -/
  indent? : Option Nat := none
deriving DecidableEq, Repr

/-- Reads the marks of a block scalar after the first one, in either order. -/
def blockHeader? (p : Position) : Option (BlockHeader × Position) :=
  let chompOf (c : Char) : Option Chomp :=
    if c = '+' then some .keep else if c = '-' then some .strip else none
  let indentOf (c : Char) : Option Nat := Text.digitValue? 10 c
  match p.rest with
  | [] => some ({}, p)
  | c :: rest =>
    match chompOf c, indentOf c with
    | some chomp, _ =>
      match rest.head?.bind indentOf with
      | some 0 => none
      | some indent => some ({ chomp, indent? := some indent }, p.advance 2)
      | none => some ({ chomp }, p.advance 1)
    | none, some 0 => none
    | none, some indent =>
      match rest.head?.bind chompOf with
      | some chomp => some ({ chomp, indent? := some indent }, p.advance 2)
      | none => some ({ indent? := some indent }, p.advance 1)
    | none, none => some ({}, p)

/-- Goes over empty lines before the indentation `indent`; while none is known, blanks count towards
it. Returns the line ends and the deepest column seen. -/
def blankLines? (indent? : Option Nat) :
    (fuel : Nat) → List Char → Nat → Position → Option (List Char × Nat × Position)
  | 0, _, _, _ => none
  | fuel + 1, lineEnds, deepest, p =>
    let blanks := (p.rest.takeWhile (· == ' ')).length
    let p := p.advance (match indent? with
      | none => blanks
      | some indent => min blanks (indent - p.column))
    let deepest := max deepest p.column
    let inMargin := match indent? with
      | none => true
      | some indent => p.column < indent
    if inMargin && p.at? '\t' then none
    else match p.breakLine? with
      | some (lineEnd, p) => blankLines? indent? fuel (lineEnds ++ lineEnd) deepest p
      | none => some (lineEnds, deepest, p)

/-- Reads the lines of a block scalar. `lead` is the end of the line before and `empty` the ends of
empty lines after that one; `indentedBefore` says that the line before started with a blank. -/
def blockLines? (literal : Bool) (indent : Nat) :
    (fuel : Nat) → (text lead empty : List Char) → (indentedBefore : Bool) → Position →
      Option (List Char × List Char × List Char × Position)
  | 0, _, _, _, _, _ => none
  | fuel + 1, text, lead, empty, indentedBefore, p =>
    if p.column = indent ∧ !p.rest.isEmpty then
      let indented := match p.rest with
        | c :: _ => isSpace c
        | [] => false
      let folds := !literal && lead == ['\n'] && !indentedBefore && !indented
      let join := if folds then (if empty.isEmpty then [' '] else []) else lead
      let line := p.rest.takeWhile fun c => !isBreak c
      let text := text ++ join ++ empty ++ line
      let p := p.advance line.length
      match p.breakLine? with
      | none => some (text, [], [], p)
      | some (lead, p) =>
        match blankLines? (some indent) (p.rest.length + 1) [] 0 p with
        | none => none
        | some (empty, _, p) => blockLines? literal indent fuel text lead empty indented p
    else some (text, lead, empty, p)

/-- Reads a block scalar; its lines are indented at least to `margin`. -/
def block? (margin : Nat) (p : Position) : Option (Style × List Char × Position) := do
  let literal := p.at? '|'
  let (header, p) ← blockHeader? (p.advance 1)
  let p := (p.skipWhile isSpace).skipComment
  let p ← match p.breakLine? with
    | some (_, p) => some p
    | none => if p.rest.isEmpty then some p else none
  let fuel := p.rest.length + 1
  let given? := header.indent?.map fun indent => (margin - 1) + indent
  let (empty, deepest, p) ← blankLines? given? fuel [] 0 p
  let indent := given?.getD (max deepest (max margin 1))
  let (text, lead, empty, p) ← blockLines? literal indent fuel [] [] empty false p
  let text := match header.chomp with
    | .strip => text
    | .clip => text ++ lead
    | .keep => text ++ lead ++ empty
  return (if literal then .literal else .folded, text, { p with fresh := true })

end Scalar
end Blueprint.Yaml
