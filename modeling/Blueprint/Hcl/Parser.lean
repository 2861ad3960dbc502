import Blueprint.Hcl.Template

/-!
# Reading expressions

The grammar of expressions by recursive descent. Within brackets line ends are blanks, outside of
them an expression ends with its line; every function takes this as `acrossLines`. The fuel bounds
the depth of the descent and the length of its loops, each step of which reads a character, so a
multiple of the length of the source is enough (`Expr.read`).
-/

namespace Blueprint.Hcl.Parser

open Reader

/-- How tightly an operation binds. -/
def precedence : BinaryOp → Nat
  | .or => 1
  | .and => 2
  | .eq | .notEq => 3
  | .less | .greater | .lessEq | .greaterEq => 4
  | .plus | .minus => 5
  | .mul | .div | .mod => 6

/-- Reads the sign of an operation with two operands. -/
def binaryOp? : Reader (Option BinaryOp) := do
  let signs : List (String × BinaryOp) :=
    [("==", .eq), ("!=", .notEq), ("<=", .lessEq), (">=", .greaterEq), ("&&", .and), ("||", .or),
     ("<", .less), (">", .greater), ("+", .plus), ("-", .minus), ("*", .mul), ("/", .div),
     ("%", .mod)]
  if (← isAhead "//") || (← isAhead "/*") then return none
  let ahead ← ahead
  match signs.find? fun sign => sign.1.toList.isPrefixOf ahead with
  | some (sign, op) =>
    text sign
    return some op
  | none => return none

/-- Closes the open operations that bind at least as tightly as the one that comes next. -/
def closeTighter (next : Nat) : List (Expr × BinaryOp) → Expr → List (Expr × BinaryOp) × Expr
  | [], operand => ([], operand)
  | (left, op) :: rest, operand =>
    if next ≤ precedence op then closeTighter next rest (.binary op left operand)
    else ((left, op) :: rest, operand)

/-- The tree of a chain of operations: tighter ones first, equal ones from left to right. -/
def chain (open_ : List (Expr × BinaryOp)) (operand : Expr) : List (BinaryOp × Expr) → Expr
  | [] => (closeTighter 0 open_ operand).2
  | (op, next) :: rest =>
    let (open_, operand) := closeTighter (precedence op) open_ operand
    chain ((operand, op) :: open_) next rest

/-- The operand of a sign. A sign before a number is part of the number. -/
def applyUnary : UnaryOp → Expr → Option Expr
  | .neg, .number (.whole n) =>
    match Whole.ofInt? (-n.value) with
    | some negated => some (.number (.whole negated))
    | none => (Binary64.ofRatio? true n.value.natAbs 1).map fun x => .number (.real x)
  | .neg, .number (.real x) => some (.number (Number.real x.neg).normalize)
  | op, operand => some (.unary op operand)

/-- Reads a number. Digits alone are a whole number; with a fraction or an exponent they are
rounded, and the result is whole again where it can be. -/
def number : Reader Number := do
  let whole ← span Char.isDigit
  if whole.isEmpty then failure
  let fraction? ← attempt? do
    char '.'
    let first ← charIf Char.isDigit
    return first :: (← span Char.isDigit)
  let exponent? ← attempt? do
    let _ ← charIf fun c => c == 'e' || c == 'E'
    let negative ← text? "-"
    let _ ← if negative then pure false else text? "+"
    let digits ← span Char.isDigit
    match Text.natOfDigits? 10 digits with
    | some value => return (if negative then -(value : Int) else (value : Int))
    | none => failure
  let fraction := fraction?.getD []
  match Text.natOfDigits? 10 (whole ++ fraction) with
  | none => failure
  | some digits =>
    if fraction?.isNone && exponent?.isNone then
      match Whole.ofNat? digits with
      | some n => return .whole n
      | none => failure
    else
      match Binary64.ofDecimal? false digits (exponent?.getD 0 - (fraction.length : Int)) with
      | some x => return (Number.real x).normalize
      | none => failure

/-- Reads the digits of a character given by its number. -/
def charNumber (width : Nat) : Reader Char := do
  let digits ← take width
  if digits.length ≠ width then failure
  match Text.natOfDigits? 16 digits with
  | some value => if h : value.isValidChar then return Char.ofNatAux value h else failure
  | none => failure

def escaped : Reader Char := do
  match ← charIf fun _ => true with
  | 'n' => return '\n'
  | 'r' => return '\r'
  | 't' => return '\t'
  | '"' => return '"'
  | '\\' => return '\\'
  | '/' => return '/'
  | 'b' => return '\x08'
  | 'f' => return '\x0c'
  | 'u' => charNumber 4
  | 'U' => charNumber 8
  | _ => failure

/-- Whether the end of a directive stands ahead: `else`, `endif` or `endfor` after the marker. -/
def closingAhead : Reader Bool := fun source =>
  let closing : Reader Unit := do
    let _ ← text "%\x7b"
    let _ ← text? "~"
    blanks true
    let word ← name
    if word ∈ ["else", "endif", "endfor"] then return () else failure
  some ((closing source).isSome, source)

/-- Reads the end of an interpolation or of the head of a directive. -/
def closeCode : Reader Unit := do
  blanks true
  let _ ← text? "~"
  char '\x7d'

/-- Reads a directive that consists of one word. -/
def wordDirective (word : String) : Reader Unit := do
  text "%\x7b"
  let _ ← text? "~"
  blanks true
  keyword word
  closeCode

/-- Whether the word `for` and something that ends the word stand ahead. -/
def forAhead : Reader Bool := do
  match ← ahead with
  | 'f' :: 'o' :: 'r' :: c :: _ =>
    return c == ' ' || c == '\t' || c == '\n' || c == '\r' || c == '#' || c == '/'
  | _ => return false

mutual

def expr (acrossLines : Bool) : (fuel : Nat) → Reader Expr
  | 0 => failure
  | fuel + 1 => do
    let first ← operand acrossLines fuel
    let others ← operations acrossLines fuel
    let condition := chain [] first others
    blanks acrossLines
    if ← text? "?" then
      blanks acrossLines
      let whenTrue ← expr acrossLines fuel
      blanks acrossLines
      char ':'
      blanks acrossLines
      let whenFalse ← expr acrossLines fuel
      return .conditional condition whenTrue whenFalse
    else return condition

def operations (acrossLines : Bool) : (fuel : Nat) → Reader (List (BinaryOp × Expr))
  | 0 => failure
  | fuel + 1 => do
    blanks acrossLines
    match ← binaryOp? with
    | none => return []
    | some op =>
      blanks acrossLines
      let right ← operand acrossLines fuel
      return (op, right) :: (← operations acrossLines fuel)

/-- Reads signs, a term and the steps of a traversal. Of several signs the last one counts. -/
def operand (acrossLines : Bool) : (fuel : Nat) → Reader Expr
  | 0 => failure
  | fuel + 1 => do
    let sign? ← signs acrossLines fuel
    let value ← term acrossLines fuel
    let root ← match sign? with
      | none => pure value
      | some op => match applyUnary op value with
        | some signed => pure signed
        | none => failure
    match ← selectors acrossLines fuel with
    | [] => return root
    | steps => return .traversal root steps

/-- Reads signs; what is kept of them is the last one. -/
def signs (acrossLines : Bool) : (fuel : Nat) → Reader (Option UnaryOp)
  | 0 => return none
  | fuel + 1 => do
    let sign : Reader (UnaryOp × Option UnaryOp) := do
      let op ← if ← text? "-" then pure UnaryOp.neg else do
        text "!"
        pure UnaryOp.not
      blanks acrossLines
      return (op, ← signs acrossLines fuel)
    let spelling : UnaryOp × Option UnaryOp → List Char
      | (_, some .neg) | (.neg, none) => ['-']
      | (_, some .not) | (.not, none) => ['!']
    match ← attempt? (spelledAs sign spelling) with
    | none => return none
    | some (op, later?) => return some (later?.getD op)

/-- Reads the steps of a traversal. An index after a point has no leading zeros. -/
def selectors (acrossLines : Bool) : (fuel : Nat) → Reader (List Selector)
  | 0 => return []
  | fuel + 1 => do
    let step? ← attempt? do
      blanks acrossLines
      match ← peek? with
      | some '.' =>
        char '.'
        -- Two points are the beginning of the three that end an argument list.
        if ← isAhead "." then failure
        blanks acrossLines
        match ← peek? with
        | some '*' =>
          char '*'
          return Selector.fieldSplat
        | some c =>
          if c.isDigit then
            let digits ← if c = '0' then take 1 else span Char.isDigit
            match (Text.natOfDigits? 10 digits).bind Whole.ofNat? with
            | some index => return Selector.position index.value.toNat
            | none => failure
          else return Selector.field (← name)
        | none => failure
      | some '[' =>
        char '['
        let splat? ← attempt? do
          blanks true
          char '*'
          blanks true
          char ']'
        match splat? with
        | some () => return Selector.splat
        | none =>
          blanks true
          let index ← expr true fuel
          blanks true
          char ']'
          return Selector.index index
      | _ => failure
    match step? with
    | none => return []
    | some step => return step :: (← selectors acrossLines fuel)

def term (acrossLines : Bool) : (fuel : Nat) → Reader Expr
  | 0 => failure
  | fuel + 1 => do
    match ← peek? with
    | none => failure
    | some '"' =>
      let pieces ← quotedPieces fuel
      -- Without code in it the template is a string.
      match Template.literal? pieces with
      | some text => return .string (String.ofList text)
      | none => return .template (String.ofList (Template.text pieces))
    | some '[' =>
      char '['
      blanks true
      if ← forAhead then forEach ']' fuel
      else
        let items ← items ']' fuel
        return .array items.1
    | some '{' =>
      char '\x7b'
      blanks true
      if ← forAhead then forEach '\x7d' fuel
      else return .object (← entries fuel [])
    | some '(' =>
      char '('
      blanks true
      let inner ← expr true fuel
      blanks true
      char ')'
      return .paren inner
    | some '<' => heredoc fuel
    | some c =>
      if c.isDigit then return .number (← number)
      else
        let first ← name
        if first = "true" then return .bool true
        else if first = "false" then return .bool false
        else if first = "null" then return .null
        else
          let call? ← attempt? do
            let names ← namespaces acrossLines fuel
            blanks acrossLines
            char '('
            return names
          match call? with
          | none => return .ident first
          | some more =>
            blanks true
            let args ← items ')' fuel
            let all := first :: more
            return .call all.dropLast (all.getLast?.getD first) args.1 args.2

/-- Reads the further names of a function, each after two colons. -/
def namespaces (acrossLines : Bool) : (fuel : Nat) → Reader (List String)
  | 0 => return []
  | fuel + 1 => do
    let next? ← attempt? do
      blanks acrossLines
      text "::"
      blanks acrossLines
      name
    match next? with
    | none => return []
    | some next => return next :: (← namespaces acrossLines fuel)

/-- Reads expressions between commas up to a closing bracket. In the arguments of a function the
last one may be followed by three points, which the second result tells. -/
def items (close : Char) : (fuel : Nat) → Reader (List Expr × Bool)
  | 0 => failure
  | fuel + 1 => do
    if (← peek?) = some close then
      char close
      return ([], false)
    let item ← expr true fuel
    blanks true
    let expands ← if close = ')' then text? "..." else pure false
    if expands then
      blanks true
      char close
      return ([item], true)
    if ← text? "," then
      blanks true
      let (rest, expand) ← items close fuel
      return (item :: rest, expand)
    char close
    return ([item], false)

/-- Reads the entries of an object after the ones read before. An entry ends with its line or a
comma; a key that was there before keeps its place and takes the new value. -/
def entries : (fuel : Nat) → List (Key × Expr) → Reader (List (Key × Expr))
  | 0, _ => failure
  | fuel + 1, before => do
    blanks true
    if ← text? "\x7d" then return before
    let key ← expr false fuel
    let key := match key with
      | .ident name => Key.name name
      | key => Key.expr key
    blanks false
    if !(← text? "=") then char ':'
    blanks false
    let value ← expr false fuel
    blanks false
    let all := Expr.putEntry key value before
    match ← peek? with
    | some '}' =>
      char '\x7d'
      return all
    | some ',' =>
      char ','
      entries fuel all
    | some '#' | some '/' =>
      lineComment
      lineEnd
      entries fuel all
    | _ =>
      lineEnd
      entries fuel all

/-- Reads a `for` expression after its opening bracket. -/
def forEach (close : Char) : (fuel : Nat) → Reader Expr
  | 0 => failure
  | fuel + 1 => do
    let (key?, value, collection) ← forHead fuel
    blanks true
    char ':'
    blanks true
    let first ← expr true fuel
    blanks true
    let keyed := close = '\x7d'
    let result ← if keyed then do
        text "=>"
        blanks true
        expr true fuel
      else pure first
    blanks true
    let grouping ← if keyed then text? "..." else pure false
    blanks true
    let condition ← if ← isAhead "if" then do
        text "if"
        blanks true
        let condition ← expr true fuel
        blanks true
        pure (some condition)
      else pure none
    char close
    return .forEach key? value collection (if keyed then some first else none) result grouping
      condition

/-- Reads `for`, the names it binds and the collection. -/
def forHead : (fuel : Nat) → Reader (Option String × String × Expr)
  | 0 => failure
  | fuel + 1 => do
    keyword "for"
    blanks true
    let first ← name
    blanks true
    let second? ← if ← text? "," then do
        blanks true
        let second ← name
        blanks true
        pure (some second)
      else pure none
    keyword "in"
    blanks true
    let collection ← expr true fuel
    match second? with
    | some second => return (some first, second, collection)
    | none => return (none, first, collection)

/-- Reads a text in double quotes; its spelling afterwards is the plain one. -/
def quotedPieces : (fuel : Nat) → Reader (List Piece)
  | 0 => failure
  | fuel + 1 =>
    let quoted : Reader (List Piece) := do
      char '"'
      let pieces ← pieces true fuel
      char '"'
      return Template.join pieces
    spelledAs quoted Template.quoted

/-- Reads the pieces of a template up to a closing quotation mark, the end of an enclosing directive
or the end of the source. Only between quotation marks are there escapes. -/
def pieces (inQuotes : Bool) : (fuel : Nat) → Reader (List Piece)
  | 0 => failure
  | fuel + 1 => do
    match ← ahead with
    | [] => return []
    | '$' :: '$' :: '{' :: _ =>
      let _ ← take 3
      return .literal ['$', '\x7b'] :: (← pieces inQuotes fuel)
    | '%' :: '%' :: '{' :: _ =>
      let _ ← take 3
      return .literal ['%', '\x7b'] :: (← pieces inQuotes fuel)
    | '$' :: '{' :: _ =>
      let (_, code) ← withText (interpolation fuel)
      return .code code :: (← pieces inQuotes fuel)
    | '%' :: '{' :: _ =>
      if ← closingAhead then return []
      let (_, code) ← withText (directive inQuotes fuel)
      return .code code :: (← pieces inQuotes fuel)
    | c :: _ =>
      if inQuotes && c == '"' then return []
      let _ ← take 1
      let c ← if inQuotes && c == '\\' then escaped else pure c
      return .literal [c] :: (← pieces inQuotes fuel)

def interpolation : (fuel : Nat) → Reader Unit
  | 0 => failure
  | fuel + 1 => do
    text "$\x7b"
    let _ ← text? "~"
    blanks true
    let _ ← expr true fuel
    closeCode

/-- Reads a directive with the pieces inside of it. -/
def directive (inQuotes : Bool) : (fuel : Nat) → Reader Unit
  | 0 => failure
  | fuel + 1 => do
    let inside : Reader Unit := do
      let _ ← spelledAs (pieces inQuotes fuel) fun pieces => Template.text (Template.join pieces)
    text "%\x7b"
    let _ ← text? "~"
    blanks true
    if ← isAhead "for" then
      let _ ← forHead fuel
      closeCode
      inside
      wordDirective "endfor"
    else
      keyword "if"
      blanks true
      let _ ← expr true fuel
      closeCode
      inside
      let _ ← attempt? do
        wordDirective "else"
        inside
      wordDirective "endif"

/-- Reads a heredoc. Its text reaches up to the line that starts with the delimiter. -/
def heredoc : (fuel : Nat) → Reader Expr
  | 0 => failure
  | fuel + 1 => do
    text "<<"
    let indented ← text? "-"
    let delimiter ← name
    lineEnd
    match Template.splitHeredoc delimiter.toList true (← ahead) with
    | none => failure
    | some (content, after) =>
      let _ ← take ((← ahead).length - after.length)
      match pieces false fuel ⟨content, []⟩ with
      | some (pieces, ⟨[], _⟩) =>
        let pieces := Template.join pieces
        let pieces := if indented then Template.dedent pieces else pieces
        return .heredoc ⟨indented, delimiter, String.ofList (Template.text pieces)⟩
      | _ => failure

end

/-- The fuel with which a source of some length can be read. -/
def fuelFor (source : List Char) : Nat :=
  8 * source.length + 64

end Blueprint.Hcl.Parser
