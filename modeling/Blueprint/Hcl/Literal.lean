import Blueprint.Hcl.Printer

/-!
# Literals

What an expression says without being evaluated: the text of a string literal, the strings of a list
literal, and the value that an expression stands for. Parentheses are looked through. Whatever would
have to be evaluated stands for its own source text.
-/

namespace Blueprint.Hcl.Expr

def dropLineFeeds (text : String) : String :=
  String.ofList (Text.dropEndWhile (· == '\n') text.toList)

/-- A template text that has no code in it. -/
def plainText? (text : String) : Option String :=
  if Text.contains ['$', '\x7b'] text.toList || Text.contains ['%', '\x7b'] text.toList then none
  else some text

/-- The text of a string literal; a template counts as one when it has no code, a heredoc without
the line feeds at its end. -/
def literalString? : Expr → Option String
  | string s => some s
  | paren inner => literalString? inner
  | template text => plainText? text
  | heredoc ⟨_, _, text⟩ => plainText? (dropLineFeeds text)
  | null | bool _ | number _ | array _ | object _ | ident _ | traversal .. | call ..
  | conditional .. | unary .. | binary .. | forEach .. => none

/-- The string literals of a list; other items are left out. -/
def literalStrings : Expr → List String
  | array items => items.filterMap literalString?
  | paren inner => literalStrings inner
  | null | bool _ | number _ | string _ | object _ | template _ | heredoc _ | ident _
  | traversal .. | call .. | conditional .. | unary .. | binary .. | forEach .. => []

/-- The text of a literal: a number, a truth value or a string. -/
def scalarText? : Expr → Option String
  | number n => some (String.ofList (n.toText numberLayout))
  | bool b => some (if b then "true" else "false")
  | e => literalString? e

end Expr

/-- The text of a key: the name itself, the text of a literal, or else the source text. -/
def Key.text : Key → String
  | .name text => text
  | .expr e => e.scalarText?.getD e.toText

namespace Expr

mutual
def toValue : Expr → Value
  | null => .null
  | bool b => .bool b
  | number n => .number n
  | string s => .string s
  | array items => .array (itemValues items)
  | object entries => .ofFields (entryValues entries)
  | paren inner => toValue inner
  | e@(template _) | e@(heredoc _) | e@(ident _) | e@(traversal ..) | e@(call ..)
  | e@(conditional ..) | e@(unary ..) | e@(binary ..) | e@(forEach ..) =>
    .string (e.literalString?.getD e.toText)

def itemValues : List Expr → List Value
  | [] => []
  | item :: rest => toValue item :: itemValues rest

def entryValues : List (Key × Expr) → List (String × Value)
  | [] => []
  | (key, value) :: rest => (key.text, toValue value) :: entryValues rest
end

/-- The value of a key of an object; the first key of that text counts. -/
def member? (key : String) : Expr → Option Expr
  | object entries => (entries.find? fun entry => entry.1.text == key).map (·.2)
  | _ => none

/-- An expression without the parentheses around it. -/
def strip : Expr → Expr
  | paren inner => strip inner
  | e => e

end Expr

namespace Body

/-- The text of an attribute that is a literal. -/
def string? (body : Body) (name : String) : Option String :=
  (body.attribute? name).bind Expr.scalarText?

end Body
end Blueprint.Hcl
