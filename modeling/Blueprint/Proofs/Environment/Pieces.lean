import Blueprint.Environment
import Mathlib.Data.List.TakeWhile
import Mathlib.Data.Nat.Init

/-!
# The references in a text

The pieces of a text are its references and the characters between them, read once from left to
right: after a dollar sign a name in braces, or else the longest name without them. `Scan` says what
can follow what. The names that `bracedNames` and `bareNames` find, each in a reading of their own,
are the names of the pieces, unless a name in braces has a dollar sign of its own.
-/

namespace Blueprint

namespace Environment

/-! ## The pieces of a text -/

/-- A character that belongs to no reference, or a reference by its name. -/
inductive Piece where
  | char (c : Char)
  | braced (name : List Char)
  | bare (name : List Char)
deriving DecidableEq, Repr

namespace Piece

/-- A piece as it is written. -/
def written : Piece → List Char
  | char c => [c]
  | braced name => Environment.braced name
  | bare name => Environment.bare name

/-- The value of the variable that a piece refers to, if it is set. -/
def value? (env : Environment) : Piece → Option (List Char)
  | char _ => none
  | braced name | bare name => (env.get? (String.ofList name)).map String.toList

/-- What a piece stands for: the value of its variable, or the piece as it is written. -/
def expanded (env : Environment) (piece : Piece) : List Char :=
  (piece.value? env).getD piece.written

def bracedName? : Piece → Option (List Char)
  | braced name => some name
  | char _ | bare _ => none

def bareName? : Piece → Option (List Char)
  | bare name => some name
  | char _ | braced _ => none

end Piece

/-- The reference with which a text after a dollar sign starts. -/
def reference? (text : List Char) : Option Piece :=
  match bracedName? text with
  | some name => some (.braced name)
  | none => (bareName? text).map .bare

/-- The pieces of a text, read from left to right. The first argument counts the characters that
still belong to a reference already read. -/
def piecesFrom : Nat → List Char → List Piece
  | _, [] => []
  | covered + 1, _ :: rest => piecesFrom covered rest
  | 0, c :: rest =>
    match if c = '$' then reference? rest else none with
    | some piece => piece :: piecesFrom (piece.written.length - 1) rest
    | none => .char c :: piecesFrom 0 rest

def pieces (text : List Char) : List Piece :=
  piecesFrom 0 text

/-- A text in which each reference, from left to right, is replaced by the value of its variable
where that is set. -/
def substituted (env : Environment) (text : String) : String :=
  String.ofList ((pieces text.toList).flatMap (Piece.expanded env))

/-- What the pieces of a text are. -/
inductive Scan : List Char → List Piece → Prop where
  | nil : Scan [] []
  | braced {name after : List Char} {pieces : List Piece} (nonempty : name ≠ [])
      (ends : '\x7d' ∉ name) :
      Scan after pieces → Scan (Environment.braced name ++ after) (.braced name :: pieces)
  | bare {first : Char} {name after : List Char} {pieces : List Piece} (start : isNameStart first)
      (parts : ∀ c ∈ name, isNamePart c) (longest : ∀ c ∈ after.head?, isNamePart c = false) :
      Scan after pieces →
      Scan (Environment.bare (first :: name) ++ after) (.bare (first :: name) :: pieces)
  | char {c : Char} {after : List Char} {pieces : List Piece}
      (plain : c = '$' → bracedName? after = none ∧ bareName? after = none) :
      Scan after pieces → Scan (c :: after) (.char c :: pieces)

private theorem bracedName?_eq_some {text name : List Char} (found : bracedName? text = some name) :
    name ≠ [] ∧ '\x7d' ∉ name ∧ ∃ after, text = '\x7b' :: name ++ '\x7d' :: after := by
  unfold bracedName? at found
  split at found
  · next rest =>
    dsimp only at found
    split at found
    · cases found
    · next named =>
      obtain rfl := Option.some.inj found
      simp only [Bool.or_eq_true, List.isEmpty_iff, Bool.not_eq_true', not_or,
        Bool.not_eq_false, List.contains_iff_mem] at named
      have apart : '\x7d' ∉ rest.takeWhile (· != '\x7d') := fun member => by
        simpa using List.mem_takeWhile_imp member
      refine ⟨named.1, apart, ?_⟩
      -- The name is followed by something, and that is the brace at which it stopped.
      cases behind : rest.dropWhile (· != '\x7d') with
      | nil =>
        have whole : rest.takeWhile (· != '\x7d') = rest := by
          simpa [behind] using @List.takeWhile_append_dropWhile _ (· != '\x7d') rest
        exact absurd named.2 (whole ▸ apart)
      | cons c after =>
        have closing : c = '\x7d' := by
          have := List.head?_dropWhile_not (· != '\x7d') rest
          simpa [behind] using this
        subst closing
        refine ⟨after, ?_⟩
        rw [← behind, List.cons_append, List.takeWhile_append_dropWhile]
  · cases found

private theorem bareName?_eq_some {text name : List Char} (found : bareName? text = some name) :
    ∃ first parts after, name = first :: parts ∧ text = name ++ after ∧ isNameStart first ∧
      (∀ c ∈ parts, isNamePart c) ∧ ∀ c ∈ after.head?, isNamePart c = false := by
  cases text with
  | nil => cases found
  | cons c rest =>
    simp only [bareName?] at found
    split at found
    · next start =>
      obtain rfl := Option.some.inj found
      refine ⟨c, rest.takeWhile isNamePart, rest.dropWhile isNamePart, rfl, ?_, start,
        fun c member => List.mem_takeWhile_imp member, ?_⟩
      · rw [List.cons_append, List.takeWhile_append_dropWhile]
      · intro d here
        have := List.head?_dropWhile_not isNamePart rest
        rw [Option.mem_def] at here
        simpa [here] using this
    · cases found

private theorem reference?_of_braced {text name : List Char}
    (named : bracedName? text = some name) :
    reference? text = some (.braced name) := by
  simp only [reference?, named]

private theorem reference?_of_bare {text name : List Char} (unbraced : bracedName? text = none)
    (named : bareName? text = some name) : reference? text = some (.bare name) := by
  simp only [reference?, unbraced, named, Option.map_some]

private theorem reference?_eq_none {text : List Char} (absent : reference? text = none) :
    bracedName? text = none ∧ bareName? text = none := by
  unfold reference? at absent
  cases named : bracedName? text with
  | some name => simp [named] at absent
  | none => simpa [named] using absent

private theorem piecesFrom_eq (covered : Nat) (text : List Char) :
    piecesFrom covered text = pieces (text.drop covered) := by
  induction text generalizing covered with
  | nil => cases covered <;> simp [piecesFrom, pieces]
  | cons c rest ih =>
    cases covered with
    | zero => rfl
    | succ covered => simpa [piecesFrom] using ih covered

/-- A brace that opens no name is closed at once or never. -/
theorem bracedName?_eq_none {text : List Char} (absent : bracedName? ('\x7b' :: text) = none) :
    text.head? = some '\x7d' ∨ '\x7d' ∉ text := by
  by_cases closed : '\x7d' ∈ text
  · left
    cases text with
    | nil => cases closed
    | cons c rest =>
      by_cases same : c = '\x7d'
      · simp [same]
      · simp [bracedName?, same, closed] at absent
  · exact .inr closed

private theorem pieces_reference {text after : List Char} {piece : Piece}
    (found : reference? text = some piece) (written : '$' :: text = piece.written ++ after) :
    pieces ('$' :: text) = piece :: pieces after := by
  have rest : text.drop (piece.written.length - 1) = after := by
    cases shape : piece.written with
    | nil =>
      cases piece <;> simp [Piece.written, Environment.braced, Environment.bare] at shape
    | cons c tail =>
      rw [shape, List.cons_append, List.cons.injEq] at written
      simp [written.2]
  rw [pieces, piecesFrom, if_pos rfl, found]
  exact congrArg (piece :: ·) (by rw [piecesFrom_eq, rest])

private theorem pieces_char {c : Char} {rest : List Char}
    (plain : c = '$' → reference? rest = none) :
    pieces (c :: rest) = .char c :: pieces rest := by
  have absent : (if c = '$' then reference? rest else none) = none := by
    split
    · next dollar => exact plain dollar
    · rfl
  rw [pieces, piecesFrom, absent]
  rfl

theorem scan_pieces (text : List Char) : Scan text (pieces text) := by
  -- By the length of the text, since a reference takes several characters at once.
  induction length : text.length using Nat.strong_induction_on generalizing text with
  | _ n ih =>
    subst length
    match text with
    | [] => exact .nil
    | c :: rest =>
      by_cases reference : c = '$' ∧ reference? rest ≠ none
      · obtain ⟨rfl, found⟩ := reference
        cases named : bracedName? rest with
        | some name =>
          obtain ⟨nonempty, ends, after, rfl⟩ := bracedName?_eq_some named
          have written : '$' :: ('\x7b' :: name ++ '\x7d' :: after) =
              Environment.braced name ++ after := by simp [Environment.braced]
          rw [pieces_reference (reference?_of_braced named) written, written]
          exact .braced nonempty ends (ih after.length (by simp; omega) after rfl)
        | none =>
          cases unbraced : bareName? rest with
          | none => simp [reference?, named, unbraced] at found
          | some name =>
            obtain ⟨first, parts, after, rfl, rfl, start, all, longest⟩ := bareName?_eq_some unbraced
            have written : '$' :: (first :: parts ++ after) =
                Environment.bare (first :: parts) ++ after := rfl
            rw [pieces_reference (reference?_of_bare named unbraced) written, written]
            exact .bare start all longest (ih after.length (by simp; omega) after rfl)
      · have plain : c = '$' → reference? rest = none := by simpa using reference
        rw [pieces_char plain]
        exact .char (fun dollar => reference?_eq_none (plain dollar))
          (ih rest.length (by simp) rest rfl)

/-! ## What a scan has found -/

theorem Scan.written {text : List Char} {ps : List Piece} (scan : Scan text ps) :
    ps.flatMap Piece.written = text := by
  induction scan with
  | nil => rfl
  | braced _ _ _ ih => simp [Piece.written, ih]
  | bare _ _ _ _ ih => simp [Piece.written, ih]
  | char _ _ ih => simp [Piece.written, ih]

theorem Scan.suffix {text : List Char} {ps rest : List Piece} (scan : Scan text ps)
    (suffix : rest <:+ ps) : ∃ text', Scan text' rest := by
  induction scan with
  | nil =>
    obtain rfl := List.suffix_nil.mp suffix
    exact ⟨[], .nil⟩
  | braced nonempty ends inner ih =>
    rcases List.suffix_cons_iff.mp suffix with rfl | later
    · exact ⟨_, .braced nonempty ends inner⟩
    · exact ih later
  | bare start parts longest inner ih =>
    rcases List.suffix_cons_iff.mp suffix with rfl | later
    · exact ⟨_, .bare start parts longest inner⟩
    · exact ih later
  | char plain inner ih =>
    rcases List.suffix_cons_iff.mp suffix with rfl | later
    · exact ⟨_, .char plain inner⟩
    · exact ih later

/-- Before a character that starts no reference, the next piece is that character. -/
theorem Scan.of_ne_dollar {c : Char} {after : List Char} {ps : List Piece}
    (scan : Scan (c :: after) ps) (other : c ≠ '$') :
    ∃ rest, ps = .char c :: rest ∧ Scan after rest := by
  generalize same : c :: after = text at scan
  cases scan with
  | nil => cases same
  | braced nonempty ends inner => exact absurd (List.cons.inj same).1 other
  | bare start parts longest inner => exact absurd (List.cons.inj same).1 other
  | char plain inner =>
    obtain ⟨rfl, rfl⟩ := List.cons.inj same
    exact ⟨_, rfl, inner⟩

/-- The names of the references in braces among pieces. -/
def bracedIn (ps : List Piece) : List (List Char) :=
  ps.filterMap Piece.bracedName?

/-- The names of the references without braces among pieces. -/
def bareIn (ps : List Piece) : List (List Char) :=
  ps.filterMap Piece.bareName?

@[simp] theorem bracedIn_char (c : Char) (ps : List Piece) :
    bracedIn (.char c :: ps) = bracedIn ps := rfl

@[simp] theorem bracedIn_braced (name : List Char) (ps : List Piece) :
    bracedIn (.braced name :: ps) = name :: bracedIn ps := rfl

@[simp] theorem bracedIn_bare (name : List Char) (ps : List Piece) :
    bracedIn (.bare name :: ps) = bracedIn ps := rfl

@[simp] theorem bareIn_char (c : Char) (ps : List Piece) : bareIn (.char c :: ps) = bareIn ps := rfl

@[simp] theorem bareIn_braced (name : List Char) (ps : List Piece) :
    bareIn (.braced name :: ps) = bareIn ps := rfl

@[simp] theorem bareIn_bare (name : List Char) (ps : List Piece) :
    bareIn (.bare name :: ps) = name :: bareIn ps := rfl

theorem mem_bracedIn {ps : List Piece} {name : List Char} :
    name ∈ bracedIn ps ↔ .braced name ∈ ps := by
  refine List.mem_filterMap.trans ⟨?_, fun member => ⟨_, member, rfl⟩⟩
  rintro ⟨piece, member, named⟩
  cases piece <;> simp_all [Piece.bracedName?]

theorem mem_bareIn {ps : List Piece} {name : List Char} : name ∈ bareIn ps ↔ .bare name ∈ ps := by
  refine List.mem_filterMap.trans ⟨?_, fun member => ⟨_, member, rfl⟩⟩
  rintro ⟨piece, member, named⟩
  cases piece <;> simp_all [Piece.bareName?]

theorem Scan.of_braced {text name : List Char} {ps : List Piece} (scan : Scan text ps)
    (member : .braced name ∈ ps) : name ≠ [] ∧ '\x7d' ∉ name := by
  obtain ⟨before, rest, rfl⟩ := List.append_of_mem member
  obtain ⟨text', here⟩ := scan.suffix (List.suffix_append before (.braced name :: rest))
  cases here with
  | braced nonempty ends inner => exact ⟨nonempty, ends⟩

theorem Scan.of_bare {text name : List Char} {ps : List Piece} (scan : Scan text ps)
    (member : .bare name ∈ ps) :
    ∃ first parts, name = first :: parts ∧ isNameStart first ∧ ∀ c ∈ parts, isNamePart c := by
  obtain ⟨before, rest, rfl⟩ := List.append_of_mem member
  obtain ⟨text', here⟩ := scan.suffix (List.suffix_append before (.bare name :: rest))
  cases here with
  | bare start parts longest inner => exact ⟨_, _, rfl, start, parts⟩

theorem dollar_not_mem_bare {first : Char} {name : List Char} (start : isNameStart first)
    (parts : ∀ c ∈ name, isNamePart c) : '$' ∉ first :: name := by
  intro member
  rcases List.mem_cons.mp member with rfl | inside
  · exact absurd start (by decide)
  · exact absurd (parts _ inside) (by decide)

/-! ## The names that are found -/

private theorem bracedNames_of_some {rest name : List Char} (named : bracedName? rest = some name) :
    bracedNames false ('$' :: rest) = name :: bracedNames true rest := by
  simp [bracedNames, named]

private theorem bracedNames_of_none {c : Char} {rest : List Char}
    (unnamed : c = '$' → bracedName? rest = none) :
    bracedNames false (c :: rest) = bracedNames false rest := by
  have absent : (if c = '$' then bracedName? rest else none) = none := by
    split
    · next dollar => exact unnamed dollar
    · rfl
  simp [bracedNames, absent]

private theorem bareNames_of_some {rest name : List Char} (named : bareName? rest = some name) :
    bareNames ('$' :: rest) = name :: bareNames rest := by
  simp [bareNames, named]

private theorem bareNames_of_none {c : Char} {rest : List Char}
    (unnamed : c = '$' → bareName? rest = none) :
    bareNames (c :: rest) = bareNames rest := by
  have absent : (if c = '$' then bareName? rest else none) = none := by
    split
    · next dollar => exact unnamed dollar
    · rfl
  simp [bareNames, absent]

private theorem bracedNames_append {text : List Char} (absent : '$' ∉ text) (rest : List Char) :
    bracedNames false (text ++ rest) = bracedNames false rest := by
  induction text with
  | nil => rfl
  | cons c text ih =>
    rw [List.cons_append, bracedNames_of_none fun dollar => absurd (by simp [dollar]) absent]
    exact ih fun member => absent (List.mem_cons_of_mem _ member)

private theorem bareNames_append {text : List Char} (absent : '$' ∉ text) (rest : List Char) :
    bareNames (text ++ rest) = bareNames rest := by
  induction text with
  | nil => rfl
  | cons c text ih =>
    rw [List.cons_append, bareNames_of_none fun dollar => absurd (by simp [dollar]) absent]
    exact ih fun member => absent (List.mem_cons_of_mem _ member)

private theorem bracedNames_inside {name : List Char} (ends : '\x7d' ∉ name) (rest : List Char) :
    bracedNames true (name ++ '\x7d' :: rest) = bracedNames false rest := by
  induction name with
  | nil => simp [bracedNames]
  | cons c name ih =>
    have other : (c != '\x7d') = true := by
      simpa using fun same : c = '\x7d' => ends (by simp [same])
    rw [List.cons_append, bracedNames, if_pos rfl, other]
    exact ih fun member => ends (List.mem_cons_of_mem _ member)

theorem takeWhile_closing {name : List Char} (ends : '\x7d' ∉ name) (rest : List Char) :
    (name ++ '\x7d' :: rest).takeWhile (· != '\x7d') = name := by
  rw [List.takeWhile_append_of_pos]
  · simp
  · intro c member
    simpa using fun same : c = '\x7d' => ends (same ▸ member)

private theorem bracedName?_braced {name : List Char} (nonempty : name ≠ []) (ends : '\x7d' ∉ name)
    (rest : List Char) : bracedName? ('\x7b' :: name ++ '\x7d' :: rest) = some name := by
  simp [bracedName?, takeWhile_closing ends, nonempty]

private theorem bareName?_bare {first : Char} {name after : List Char} (start : isNameStart first)
    (parts : ∀ c ∈ name, isNamePart c) (longest : ∀ c ∈ after.head?, isNamePart c = false) :
    bareName? (first :: name ++ after) = some (first :: name) := by
  have taken : (name ++ after).takeWhile isNamePart = name := by
    rw [List.takeWhile_append_of_pos parts]
    cases after with
    | nil => simp
    | cons c after => simp [longest c rfl]
  simp [bareName?, start, taken]

private theorem bracedName?_bare {first : Char} (start : isNameStart first)
    (name rest : List Char) :
    bracedName? (first :: name ++ rest) = none := by
  have other : first ≠ '\x7b' := fun same => absurd (same ▸ start) (by decide)
  unfold bracedName?
  split
  · next same => exact absurd (List.cons.inj same).1 other
  · rfl

private theorem braced_append (name after : List Char) :
    Environment.braced name ++ after = '$' :: ('\x7b' :: name ++ '\x7d' :: after) := by
  simp [Environment.braced]

theorem Scan.bracedNames_eq {text : List Char} {ps : List Piece} (scan : Scan text ps) :
    bracedNames false text = bracedIn ps := by
  induction scan with
  | nil => rfl
  | @braced name after ps nonempty ends _ ih =>
    have behind : '\x7d' ∉ '\x7b' :: name := by simpa using ends
    rw [braced_append, bracedNames_of_some (bracedName?_braced nonempty ends after),
      bracedNames_inside behind, ih, bracedIn_braced]
  | @bare first name after ps start parts longest _ ih =>
    rw [Environment.bare, List.cons_append,
      bracedNames_of_none fun _ => bracedName?_bare start name after,
      bracedNames_append (dollar_not_mem_bare start parts), ih, bracedIn_bare]
  | char plain _ ih => rw [bracedNames_of_none fun dollar => (plain dollar).1, ih, bracedIn_char]

theorem Scan.bareNames_eq {text : List Char} {ps : List Piece} (scan : Scan text ps)
    (names : ∀ name ∈ bracedIn ps, '$' ∉ name) : bareNames text = bareIn ps := by
  induction scan with
  | nil => rfl
  | @braced name after ps nonempty ends _ ih =>
    have inside : '$' ∉ '\x7b' :: name ++ ['\x7d'] := by simpa using names name (by simp)
    have skipped := bareNames_append inside after
    rw [List.append_assoc, List.singleton_append] at skipped
    rw [braced_append, bareNames_of_none fun _ => rfl, skipped, bareIn_braced]
    exact ih fun name member => names name (by simp [member])
  | @bare first name after ps start parts longest _ ih =>
    rw [Environment.bare, List.cons_append,
      bareNames_of_some (bareName?_bare start parts longest),
      bareNames_append (dollar_not_mem_bare start parts), bareIn_bare]
    exact congrArg _ (ih fun name member => names name (by simpa using member))
  | char plain _ ih =>
    rw [bareNames_of_none fun dollar => (plain dollar).2, bareIn_char]
    exact ih fun name member => names name (by simpa using member)

end Environment
end Blueprint
