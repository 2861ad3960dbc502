import Blueprint.Version

/-!
# Version constraints

A constraint is a list of clauses separated by commas, each an optional comparison and a version
that may leave out its last numbers. Blank clauses are dropped; a text without any other clause is
no constraint.
-/

namespace Blueprint

/-- The comparison of a clause. -/
inductive Comparison where
  | exact
  | notEqual
  | greaterThan
  | greaterThanOrEqual
  | lessThan
  | lessThanOrEqual
  | pessimistic
deriving DecidableEq, Repr

namespace Comparison

/-- How each comparison is written; a longer spelling stands before one that it begins with. -/
def spellings : List (String × Comparison) :=
  [("~>", pessimistic), ("!=", notEqual), (">=", greaterThanOrEqual), ("<=", lessThanOrEqual),
   (">", greaterThan), ("<", lessThan), ("=", exact)]

/-- Splits a clause into its comparison, `=` when none is written, and the text of its version. -/
def split (clause : List Char) : Comparison × List Char :=
  let written := spellings.findSome? fun spelling =>
    (Text.stripStart? spelling.1.toList clause).map fun rest => (spelling.2, Text.trim rest)
  written.getD (exact, clause)

end Comparison

/-- A comparison with a version. -/
structure Clause where
  comparison : Comparison
  version : Version
deriving DecidableEq, Repr

/-- Why a text is no constraint. -/
inductive ConstraintFault where
  /-- No clause is left once blank ones are dropped. -/
  | empty
  /-- The version text of a clause is no version. -/
  | version (text : String) (fault : VersionFault)
deriving DecidableEq, Repr

/-- A constraint: its text and what the text says. -/
structure Constraint where
  raw : String
  clauses : List Clause
deriving DecidableEq, Repr

namespace Constraint

/-- The text of a version with the numbers that were left out put in as zeros. Points anywhere in
the text count, and a single `v` before it is dropped. -/
def padVersion (text : List Char) : List Char :=
  let bare := match text with
    | 'v' :: rest => rest
    | _ => text
  match bare.count '.' with
  | 0 => bare ++ ".0.0".toList
  | 1 => bare ++ ".0".toList
  | _ => bare

def parseVersion (text : List Char) : Except ConstraintFault Version :=
  match Version.parse (padVersion text) with
  | .ok version => .ok version
  | .error fault => .error (.version (String.ofList text) fault)

def parseClause (text : List Char) : Except ConstraintFault Clause := do
  let (comparison, version) := Comparison.split text
  return { comparison, version := ← parseVersion version }

/-- The clauses of a text: the pieces between commas, trimmed, without blank ones. -/
def segments (text : String) : List (List Char) :=
  ((Text.splitAtChar ',' text.toList).map Text.trim).filter fun clause => !clause.isEmpty

def parse (text : String) : Except ConstraintFault Constraint := do
  let clauses ← (segments text).mapM parseClause
  if clauses.isEmpty then throw .empty
  return { raw := text, clauses }

end Constraint
end Blueprint
