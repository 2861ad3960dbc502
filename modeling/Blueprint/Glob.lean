import Blueprint.Text.Basic

/-!
# Patterns for file names

A pattern matches a whole name. A question mark stands for one character, a star for any number of
them, brackets for one character of a class or, after an exclamation mark, for one outside it. Two
stars make a component of a path and stand for any number of components.
-/

namespace Blueprint.Glob

/-- The characters from one to another, both included. -/
structure Span where
  first : Char
  last : Char
deriving DecidableEq, Repr

/-- A piece of a pattern. -/
inductive Token where
  | char (c : Char)
  | any
  | within (spans : List Span)
  | except (spans : List Span)
  /-- Any number of characters. -/
  | run
  /-- Any number of components. -/
  | components
deriving DecidableEq, Repr

/-- The characters that are listed between brackets, alone or as spans. -/
def spans : List Char → List Span
  | first :: '-' :: last :: rest => ⟨first, last⟩ :: spans rest
  | c :: rest => ⟨c, c⟩ :: spans rest
  | [] => []

/-- Splits a text at its first closing bracket. -/
def splitClose? : List Char → Option (List Char × List Char)
  | [] => none
  | ']' :: rest => some ([], rest)
  | c :: rest => (splitClose? rest).map fun (inside, after) => (c :: inside, after)

private theorem length_splitClose? {text inside after : List Char}
    (found : splitClose? text = some (inside, after)) : after.length < text.length := by
  induction text generalizing inside after with
  | nil => simp [splitClose?] at found
  | cons c rest ih =>
    by_cases close : c = ']'
    · subst close
      obtain ⟨rfl, rfl⟩ : [] = inside ∧ rest = after := by simpa [splitClose?] using found
      simp
    · simp only [splitClose?, Option.map_eq_some_iff] at found
      obtain ⟨⟨i, a⟩, deeper, same⟩ := found
      obtain ⟨rfl, rfl⟩ : c :: i = inside ∧ a = after := by simpa using same
      have := ih deeper
      simp only [List.length_cons]
      omega

/-- Reads a pattern. `fresh` says that a component starts here. A closing bracket right behind the
opening one belongs to the class. -/
def parse? (fresh : Bool) (text : List Char) : Option (List Token) :=
  match text with
  | [] => some []
  | '?' :: rest => (parse? false rest).map (.any :: ·)
  | '*' :: '*' :: rest =>
    match rest with
    | [] => if fresh then some [.components] else none
    | '/' :: rest => if fresh then (parse? true rest).map (.components :: ·) else none
    | _ => none
  | '*' :: rest => (parse? false rest).map (.run :: ·)
  | '[' :: '!' :: first :: rest =>
    match _found : splitClose? rest with
    | some (inside, after) => (parse? false after).map (.except (spans (first :: inside)) :: ·)
    | none => none
  | ['[', '!'] => none
  | '[' :: first :: rest =>
    match _found : splitClose? rest with
    | some (inside, after) => (parse? false after).map (.within (spans (first :: inside)) :: ·)
    | none => none
  | ['['] => none
  | c :: rest => (parse? (c == '/') rest).map (.char c :: ·)
termination_by text.length
decreasing_by
  all_goals simp only [List.length_cons]
  all_goals first
    | omega
    | (have shorter := length_splitClose? _found
       omega)

def inSpans (spans : List Span) (c : Char) : Bool :=
  spans.any fun span => span.first ≤ c && c ≤ span.last

/-- Whether a token that stands for one character stands for this one. -/
def Token.accepts (c : Char) : Token → Bool
  | char d => c == d
  | any => true
  | within spans => inSpans spans c
  | except spans => !inSpans spans c
  | run | components => false

/-- What may be left of a text after any number of characters. -/
def suffixes : List Char → List (List Char)
  | [] => [[]]
  | c :: rest => (c :: rest) :: suffixes rest

/-- What may be left of a text behind its slashes. -/
def behindSlashes : List Char → List (List Char)
  | [] => [[]]
  | c :: rest => if c = '/' then rest :: behindSlashes rest else behindSlashes rest

def matchTokens : List Token → List Char → Bool
  | [], text => text.isEmpty
  | .run :: tokens, text => (suffixes text).any (matchTokens tokens)
  | .components :: tokens, text => (text :: behindSlashes text).any (matchTokens tokens)
  | token :: tokens, text =>
    match text with
    | [] => false
    | c :: rest => token.accepts c && matchTokens tokens rest

def isPattern (pattern : String) : Bool :=
  (parse? true pattern.toList).isSome

/-- Whether a pattern matches a name; a text that is no pattern matches nothing. -/
def matchesName (pattern name : String) : Bool :=
  match parse? true pattern.toList with
  | some tokens => matchTokens tokens name.toList
  | none => false

end Blueprint.Glob
