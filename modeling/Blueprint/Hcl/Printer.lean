import Blueprint.Hcl.Template

/-!
# Writing expressions

The text of an expression. Arrays and objects take a line for each of their parts, with an indent of
two blanks a level, but everything in the arguments of a function and in a conditional stays on one
line. A separator is written between two parts unless the text before it ends in an empty array or
object, which opens a fresh start (`endsFresh`).
-/

namespace Blueprint.Hcl

namespace UnaryOp

/-- The sign of an operation. -/
def sign : UnaryOp → String
  | neg => "-"
  | not => "!"

end UnaryOp

namespace BinaryOp

/-- The sign of an operation. -/
def sign : BinaryOp → String
  | eq => "=="
  | notEq => "!="
  | lessEq => "<="
  | greaterEq => ">="
  | less => "<"
  | greater => ">"
  | plus => "+"
  | minus => "-"
  | mul => "*"
  | div => "/"
  | mod => "%"
  | and => "&&"
  | or => "||"

end BinaryOp

namespace Expr

/-- Numbers in expressions have no plus sign in their exponent. -/
def numberLayout : Binary64.Layout := ⟨false⟩

mutual
/-- Whether the last array or object in the text of an expression is empty; `before` where there is
none at all. -/
def endsFresh (before : Bool) : Expr → Bool
  | array [] => true
  -- What stood before an array or object that is not empty no longer counts inside of it.
  | array (item :: rest) => itemsEndFresh (endsFresh false item) rest
  | object [] => true
  | object ((key, value) :: rest) => entriesEndFresh (endsFresh (keyEndsFresh false key) value) rest
  | traversal root steps => stepsEndFresh (endsFresh before root) steps
  | call _ _ args _ => argsEndFresh before args
  | paren inner => endsFresh before inner
  | conditional a b c => endsFresh (endsFresh (endsFresh before a) b) c
  | unary _ operand => endsFresh before operand
  | binary _ a b => endsFresh (endsFresh before a) b
  | forEach _ _ collection keyResult result _ condition =>
    optionalEndsFresh
      (endsFresh (optionalEndsFresh (endsFresh before collection) keyResult) result) condition
  | null | bool _ | number _ | string _ | template _ | heredoc _ | ident _ => before

/-- `endsFresh` for the items of an array; each of them starts with a separator before it. -/
def itemsEndFresh (before : Bool) : List Expr → Bool
  | [] => before
  | item :: rest => itemsEndFresh (endsFresh false item) rest

/-- `endsFresh` for the arguments of a function. -/
def argsEndFresh (before : Bool) : List Expr → Bool
  | [] => before
  | item :: rest => argsEndFresh (endsFresh before item) rest

def entriesEndFresh (before : Bool) : List (Key × Expr) → Bool
  | [] => before
  | (key, value) :: rest => entriesEndFresh (endsFresh (keyEndsFresh false key) value) rest

def keyEndsFresh (before : Bool) : Key → Bool
  | .name _ => before
  | .expr e => endsFresh before e

def stepsEndFresh (before : Bool) : List Selector → Bool
  | [] => before
  | .index e :: rest => stepsEndFresh (endsFresh before e) rest
  | .field _ :: rest | .position _ :: rest | .fieldSplat :: rest | .splat :: rest =>
    stepsEndFresh before rest

def optionalEndsFresh (before : Bool) : Option Expr → Bool
  | none => before
  | some e => endsFresh before e
end

/-- How the parts of arrays and objects are laid out. -/
inductive Layout where
  /-- Each part on a line of its own, at a level of indentation. -/
  | lines (level : Nat)
  /-- Everything on one line. -/
  | compact
deriving DecidableEq, Repr

namespace Layout

/-- The layout of the parts of an array or object. -/
def inner : Layout → Layout
  | lines level => lines (level + 1)
  | compact => compact

/-- The indentation of a line. -/
def indent : Layout → List Char
  | lines level => List.replicate (2 * level) ' '
  | compact => []

end Layout

mutual
/-- The text of an expression. -/
def render (layout : Layout) : Expr → List Char
  | null => "null".toList
  | bool b => (if b then "true" else "false").toList
  | number n => n.toText numberLayout
  | string s => Template.quote s.toList
  | array [] => ['[', ']']
  | array items =>
    let close := match layout with
      | .lines _ => '\n' :: layout.indent
      | .compact => []
    '[' :: renderItems layout.inner true items ++ close ++ [']']
  | object [] => ['\x7b', '\x7d']
  | object entries =>
    let close := match layout with
      | .lines _ => '\n' :: layout.indent
      | .compact => [' ']
    '\x7b' :: renderEntries layout.inner true entries ++ close ++ ['\x7d']
  | template text => '"' :: text.toList ++ ['"']
  | heredoc ⟨indented, delimiter, text⟩ =>
    let mark := if indented then "<<-" else "<<"
    let text := text.toList
    let lineEnd := if text.getLast? = some '\n' then [] else ['\n']
    let indent := if indented then layout.indent else []
    mark.toList ++ delimiter.toList ++ '\n' :: text ++ lineEnd ++ indent ++ delimiter.toList
  | ident name => name.toList
  | traversal root steps => render layout root ++ renderSteps layout steps
  | call namespaces function args expandLast =>
    let names := (namespaces ++ [function]).map String.toList
    List.intercalate [':', ':'] names ++ '(' :: renderArgs args ++
      (if expandLast then ['.', '.', '.'] else []) ++ [')']
  | paren inner => '(' :: render layout inner ++ [')']
  | conditional condition whenTrue whenFalse =>
    render .compact condition ++ [' ', '?', ' '] ++ render .compact whenTrue ++ [' ', ':', ' '] ++
      render .compact whenFalse
  | unary op operand => op.sign.toList ++ render layout operand
  | binary op left right =>
    render layout left ++ ' ' :: op.sign.toList ++ ' ' :: render layout right
  | forEach key? value collection keyResult result grouping condition =>
    let names := match key? with
      | some key => key.toList ++ [',', ' '] ++ value.toList
      | none => value.toList
    let open_ := if keyResult.isSome then '\x7b' else '['
    let close := if keyResult.isSome then '\x7d' else ']'
    open_ :: "for ".toList ++ names ++ " in ".toList ++ render layout collection ++
      [' ', ':', ' '] ++ renderKeyResult layout keyResult ++ render layout result ++
      (if grouping then ['.', '.', '.'] else []) ++ renderCondition layout condition ++ [close]

/-- The items of an array; `fresh` says that no separator is due. -/
def renderItems (layout : Layout) (fresh : Bool) : List Expr → List Char
  | [] => []
  | item :: rest =>
    let separator := match layout with
      | .lines _ => (if fresh then ['\n'] else [',', '\n']) ++ layout.indent
      | .compact => if fresh then [] else [',', ' ']
    separator ++ render layout item ++ renderItems layout (endsFresh false item) rest

/-- The entries of an object; `fresh` says that no separator is due. -/
def renderEntries (layout : Layout) (fresh : Bool) : List (Key × Expr) → List Char
  | [] => []
  | (key, value) :: rest =>
    let separator := match layout with
      | .lines _ => '\n' :: layout.indent
      | .compact => if fresh then [' '] else [',', ' ']
    separator ++ renderKey layout key ++ [' ', '=', ' '] ++ render layout value ++
      renderEntries layout (endsFresh (keyEndsFresh false key) value) rest

def renderKey (layout : Layout) : Key → List Char
  | .name name => name.toList
  | .expr e => render layout e

def renderArgs : List Expr → List Char
  | [] => []
  | [arg] => render .compact arg
  | arg :: rest => render .compact arg ++ [',', ' '] ++ renderArgs rest

def renderSteps (layout : Layout) : List Selector → List Char
  | [] => []
  | .field name :: rest => '.' :: name.toList ++ renderSteps layout rest
  | .position index :: rest => '.' :: Text.decimal index ++ renderSteps layout rest
  | .index e :: rest => '[' :: render layout e ++ ']' :: renderSteps layout rest
  | .fieldSplat :: rest => ['.', '*'] ++ renderSteps layout rest
  | .splat :: rest => ['[', '*', ']'] ++ renderSteps layout rest

def renderKeyResult (layout : Layout) : Option Expr → List Char
  | none => []
  | some key => render layout key ++ " => ".toList

def renderCondition (layout : Layout) : Option Expr → List Char
  | none => []
  | some condition => " if ".toList ++ render layout condition
end

def toText (e : Expr) : String :=
  String.ofList (render (.lines 0) e)

end Expr
end Blueprint.Hcl
