import Blueprint.Value

/-!
# Expressions

The expressions of the configuration language. Templates with interpolations and heredocs keep
their text; everything else is a tree. Two expressions are compared by recursion on both, which
tells when two keys of an object are the same.
-/

namespace Blueprint.Hcl

inductive UnaryOp where
  | neg
  | not
deriving DecidableEq, Repr

inductive BinaryOp where
  | eq
  | notEq
  | lessEq
  | greaterEq
  | less
  | greater
  | plus
  | minus
  | mul
  | div
  | mod
  | and
  | or
deriving DecidableEq, Repr

/-- A text between a delimiter and the line that starts with it. -/
structure Heredoc where
  /-- Whether the common indentation of its lines was taken away. -/
  indented : Bool
  delimiter : String
  text : String
deriving DecidableEq, Repr

mutual
inductive Expr where
  | null
  | bool (b : Bool)
  | number (n : Number)
  | string (s : String)
  | array (items : List Expr)
  | object (entries : List (Key × Expr))
  /-- A quoted template; its text still holds the interpolations. -/
  | template (text : String)
  | heredoc (heredoc : Heredoc)
  | ident (name : String)
  | traversal (root : Expr) (selectors : List Selector)
  | call (namespaces : List String) (function : String) (args : List Expr) (expandLast : Bool)
  | paren (inner : Expr)
  | conditional (condition whenTrue whenFalse : Expr)
  | unary (op : UnaryOp) (operand : Expr)
  | binary (op : BinaryOp) (left right : Expr)
  /-- `[for k, v in collection : value if condition]`; with a key, the form in braces, where
  `grouping` says that values of a key are gathered. -/
  | forEach (key? : Option String) (value : String) (collection : Expr) (keyResult : Option Expr)
      (result : Expr) (grouping : Bool) (condition : Option Expr)

inductive Key where
  | name (s : String)
  | expr (e : Expr)

/-- One step of a traversal. -/
inductive Selector where
  | field (name : String)
  /-- An index after a point, as in `xs.0`. -/
  | position (index : Nat)
  | index (e : Expr)
  | fieldSplat
  | splat
end

deriving instance Repr for Expr, Key, Selector

namespace Expr

instance : Inhabited Expr := ⟨null⟩

mutual
/-- Whether two expressions are the same. -/
def same : Expr → Expr → Bool
  | null, null => true
  | bool a, bool b => a == b
  | number a, number b => decide (a = b)
  | string a, string b => a == b
  | array a, array b => sameItems a b
  | object a, object b => sameEntries a b
  | template a, template b => a == b
  | heredoc a, heredoc b => decide (a = b)
  | ident a, ident b => a == b
  | traversal a as, traversal b bs => same a b && sameSelectors as bs
  | call ns f as x, call ms g bs y => ns == ms && f == g && sameItems as bs && x == y
  | paren a, paren b => same a b
  | conditional a b c, conditional d e f => same a d && same b e && same c f
  | unary o a, unary p b => decide (o = p) && same a b
  | binary o a b, binary p c d => decide (o = p) && same a c && same b d
  | forEach k v c kr r g i, forEach k' v' c' kr' r' g' i' =>
    k == k' && v == v' && same c c' && sameOptional kr kr' && same r r' && g == g' &&
      sameOptional i i'
  | _, _ => false

def sameItems : List Expr → List Expr → Bool
  | [], [] => true
  | a :: as, b :: bs => same a b && sameItems as bs
  | _, _ => false

def sameOptional : Option Expr → Option Expr → Bool
  | none, none => true
  | some a, some b => same a b
  | _, _ => false

def sameKey : Key → Key → Bool
  | .name a, .name b => a == b
  | .expr a, .expr b => same a b
  | _, _ => false

def sameEntries : List (Key × Expr) → List (Key × Expr) → Bool
  | [], [] => true
  | (k, a) :: as, (l, b) :: bs => sameKey k l && same a b && sameEntries as bs
  | _, _ => false

def sameSelector : Selector → Selector → Bool
  | .field a, .field b => a == b
  | .position a, .position b => a == b
  | .index a, .index b => same a b
  | .fieldSplat, .fieldSplat => true
  | .splat, .splat => true
  | _, _ => false

def sameSelectors : List Selector → List Selector → Bool
  | [], [] => true
  | a :: as, b :: bs => sameSelector a b && sameSelectors as bs
  | _, _ => false
end

/-- Puts an entry at the end of an object, or in the place of the entry with the same key. -/
def putEntry (key : Key) (value : Expr) : List (Key × Expr) → List (Key × Expr)
  | [] => [(key, value)]
  | (k, v) :: rest =>
    if sameKey k key then (k, value) :: rest else (k, v) :: putEntry key value rest

end Expr

/-- One statement of a body: an attribute, or a block with labels and a body of its own. -/
inductive Structure where
  | assign (name : String) (value : Expr)
  | block (kind : String) (labels : List String) (body : List Structure)
deriving Repr

instance : Inhabited Structure := ⟨.assign "" .null⟩

/-- The statements of a file or block, in source order. -/
abbrev Body := List Structure

/-- A block of a body. -/
structure Block where
  kind : String
  labels : List String
  body : Body
deriving Repr

namespace Structure

def block? : Structure → Option Block
  | assign .. => none
  | block kind labels body => some ⟨kind, labels, body⟩

def attribute? : Structure → Option (String × Expr)
  | assign name value => some (name, value)
  | block .. => none

end Structure

namespace Body

def blocks (body : Body) : List Block :=
  body.filterMap Structure.block?

def attributes (body : Body) : List (String × Expr) :=
  body.filterMap Structure.attribute?

def blocksOf (body : Body) (kind : String) : List Block :=
  (blocks body).filter fun block => block.kind == kind

def attribute? (body : Body) (name : String) : Option Expr :=
  (attributes body).lookup name

/-- The expression of a local value: the first one of that name in the `locals` blocks. -/
def local? (body : Body) (name : String) : Option Expr :=
  (blocksOf body "locals").findSome? fun block => attribute? block.body name

@[simp] theorem blocks_append (front back : Body) :
    blocks (front ++ back) = blocks front ++ blocks back :=
  List.filterMap_append

@[simp] theorem blocksOf_append (front back : Body) (kind : String) :
    blocksOf (front ++ back) kind = blocksOf front kind ++ blocksOf back kind := by
  simp [blocksOf]

end Body

namespace Block

def name? (block : Block) : Option String :=
  block.labels.head?

end Block

end Blueprint.Hcl
