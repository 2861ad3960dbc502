import Blueprint.Proofs.Json.Tokens
import Blueprint.Proofs.Value
import Blueprint.Proofs.Yaml.Flow

/-!
# Values without lines of their own

Null, truth values, numbers, texts and empty collections are read from what is written for them, up
to what follows further down.
-/

namespace Blueprint.Yaml

open Printer (blanks nextLine afterKey afterMark entryText)

namespace Node

mutual
/-- The tree of a value. -/
def ofValue : Value → Node
  | .null => .scalar none .plain "null"
  | .bool b => .scalar none .plain (if b then "true" else "false")
  | .number n => .scalar none .plain (String.ofList (n.toText Printer.numberLayout))
  | .string s => .scalar none (textStyle s) s
  | .array items => .sequence none (ofItems items)
  | .object fields => .mapping none (ofFields fields)

def ofItems : List Value → List Node
  | [] => []
  | item :: rest => ofValue item :: ofItems rest

/-- The entries of the fields of an object. -/
def ofFields : List (String × Value) → List (Node × Node)
  | [] => []
  | (key, value) :: rest => (.scalar none (textStyle key) key, ofValue value) :: ofFields rest
end

end Node

/-! ## Atoms -/

/-- A value that is no block: neither items nor fields stand in it. -/
def IsAtom : Value → Prop
  | .array (_ :: _) | .object (_ :: _) => False
  | _ => True

/-- What is no atom is a sequence with items or a mapping with entries. -/
theorem atom_or_block (value : Value) : IsAtom value ∨
    (∃ item items, value = .array (item :: items)) ∨
      ∃ field fields, value = .object (field :: fields) := by
  cases value with
  | array items =>
    cases items with
    | nil => exact .inl trivial
    | cons item items => exact .inr (.inl ⟨item, items, rfl⟩)
  | object fields =>
    cases fields with
    | nil => exact .inl trivial
    | cons field fields => exact .inr (.inr ⟨field, fields, rfl⟩)
  | null | bool | number | string => exact .inl trivial

/-- An atom stands behind a key as it stands behind a mark. -/
theorem afterKey_atom {column : Nat} {value : Value} (isAtom : IsAtom value) :
    afterKey column value = ' ' :: afterMark (column + 2) value := by
  match value, isAtom with
  | .null, _ | .bool _, _ | .number _, _ | .string _, _ | .array [], _ | .object [], _ => rfl

theorem items_cons_cons (column : Nat) (item next : Value) (items : List Value) :
    Printer.items column (item :: next :: items) =
      nextLine ('-' :: ' ' :: afterMark (column + 2) item)
        (blanks column ++ Printer.items column (next :: items)) := rfl

theorem fields_cons_cons (column : Nat) (key : String) (value : Value) (next : String × Value)
    (fields : List (String × Value)) :
    Printer.fields column ((key, value) :: next :: fields) =
      nextLine (entryText column key (afterKey column value) (afterMark (column + 2) value))
        (blanks column ++ Printer.fields column (next :: fields)) := rfl

/-! ### Whole numbers -/

private theorem holdsMark_of_absent {afterBlank : Bool} {text : List Char}
    (absent : ∀ c ∈ text, c ≠ ':' ∧ c ≠ '#') : Printer.holdsMark afterBlank text = false := by
  induction text generalizing afterBlank with
  | nil => rfl
  | cons c text ih =>
    obtain ⟨⟨noColon, noSign⟩, others⟩ := List.forall_mem_cons.mp absent
    simp [Printer.holdsMark, noColon, noSign, ih others]

/-- A digit is none of the characters that mean something else. -/
theorem not_mem_of_isDigit {c : Char} {others : List Char} (isDigit : c.isDigit = true)
    (other : others.all (fun d => !d.isDigit) = true) : c ∉ others := fun member => by
  simpa [isDigit] using List.all_eq_true.mp other c member

private theorem isBreak_of_isDigit {c : Char} (isDigit : c.isDigit = true) : isBreak c = false := by
  have noBreak : c ∉ ['\n', '\r', '\x85', '\u2028', '\u2029'] := not_mem_of_isDigit isDigit (by decide)
  simpa [isBreak, and_assoc] using noBreak

private theorem isSpace_of_isDigit {c : Char} (isDigit : c.isDigit = true) : isSpace c = false := by
  have noSpace : c ∉ [' ', '\t'] := not_mem_of_isDigit isDigit (by decide)
  simpa [isSpace] using noSpace

/-- A text of characters that never mean anything else fits into one plain line. -/
private theorem plainLine_of_all {text : List Char} (nonempty : text ≠ [])
    (ordinary : text.all (fun c => c ∉ [' ', '\t', ':', '#'] && !isBreak c) = true) :
    PlainLine text := by
  have others : ∀ c ∈ text, (c ≠ ' ' ∧ c ≠ '\t' ∧ c ≠ ':' ∧ c ≠ '#') ∧ isBreak c = false := by
    simpa using ordinary
  constructor
  · exact nonempty
  · exact fun isBlank => (others ' ' (List.mem_of_mem_head? isBlank)).1.1 rfl
  · exact fun isBlank => (others ' ' (List.mem_of_getLast? isBlank)).1.1 rfl
  · exact fun c member => ⟨(others c member).1.2.1, (others c member).2⟩
  · exact holdsMark_of_absent fun c member => (others c member).1.2.2

/-- Digits, with a minus sign in front or without, are written plainly. -/
private theorem plainLine_digits {sign digits : List Char} (signed : sign = [] ∨ sign = ['-'])
    (nonempty : digits ≠ []) (allDigits : ∀ c ∈ digits, c.isDigit = true) :
    PlainLine (sign ++ digits) := by
  -- The sign is a dash, which is ordinary everywhere but at the start of a text.
  have chars : ∀ c ∈ sign ++ digits, c = '-' ∨ c.isDigit = true := fun c member => by
    rcases List.mem_append.mp member with member | member
    · rcases signed with rfl | rfl
      · cases member
      · exact .inl (by simpa using member)
    · exact .inr (allDigits c member)
  refine plainLine_of_all (by simp [nonempty]) (List.all_eq_true.mpr fun c member => ?_)
  rcases chars c member with rfl | isDigit
  · decide
  · have noMark : c ∉ [' ', '\t', ':', '#'] := not_mem_of_isDigit isDigit (by decide)
    simp [noMark, isBreak_of_isDigit isDigit, -List.mem_cons]

private theorem startsSpecial_digits {sign digits : List Char} (signed : sign = [] ∨ sign = ['-'])
    (nonempty : digits ≠ []) (allDigits : ∀ c ∈ digits, c.isDigit = true) :
    Printer.startsSpecial (sign ++ digits) = false := by
  obtain ⟨c, rest, rfl⟩ := List.exists_cons_of_ne_nil nonempty
  have isDigit := allDigits c (by simp)
  -- A digit is none of the characters with which something else starts, and it stands behind the
  -- dash, which is therefore no mark of an item.
  have noMark : c ∉ ['#', ',', '[', ']', '\x7b', '\x7d', '&', '*', '!', '|', '>', '\'', '"', '%', '@',
      '\x60', '?', ':', '-', '.'] := not_mem_of_isDigit isDigit (by decide)
  simp only [List.mem_cons, List.not_mem_nil, or_false, not_or] at noMark
  have noDash : '-' ≠ c := fun same => absurd (same ▸ isDigit) (by decide)
  have noDot : '.' ≠ c := fun same => absurd (same ▸ isDigit) (by decide)
  rcases signed with rfl | rfl
  · simp [Printer.startsSpecial, List.isPrefixOf, noMark, noDash, noDot]
  · simp [Printer.startsSpecial, List.isPrefixOf, noDash, endsWord_eq, endsWord,
      isSpace_of_isDigit isDigit, isBreak_of_isDigit isDigit]

/-- Whole numbers are written as plain scalars. -/
theorem spelling_whole (indent : Nat) (n : Whole) : Spelling indent n.toText .plain n.toText := by
  have nonempty : Text.decimal n.value.natAbs ≠ [] := Nat.toDigits_ne_nil
  have allDigits : ∀ c ∈ Text.decimal n.value.natAbs, c.isDigit = true := fun _ =>
    Json.isDigit_of_mem_decimal
  rw [Whole.toText]
  split
  · exact .plain (plainLine_digits (.inr rfl) nonempty allDigits)
      (startsSpecial_digits (.inr rfl) nonempty allDigits)
  · exact .plain (plainLine_digits (.inl rfl) nonempty allDigits)
      (startsSpecial_digits (.inl rfl) nonempty allDigits)

/-! ### Words -/

theorem spelling_null (indent : Nat) : Spelling indent "null".toList .plain "null".toList :=
  .plain (plainLine_of_all (by decide) (by decide)) (by decide)

theorem spelling_bool (indent : Nat) (b : Bool) :
    Spelling indent (if b then "true" else "false").toList .plain
      (if b then "true" else "false").toList := by
  cases b
  · exact .plain (plainLine_of_all (by decide) (by decide)) (by decide)
  · exact .plain (plainLine_of_all (by decide) (by decide)) (by decide)

namespace Reader

section Atoms

variable {margin fuel column : Nat} {rest : List Char} {p : Position}

private theorem reads_noItems (found : p.rest = ['[', ']'] ++ '\n' :: (blanks column ++ rest))
    (starts : Starts rest) :
    p.AtAtom ∧ ∃ q, Reads (atom false margin (fuel + 2) {}) p (.sequence none []) q ∧
      q.Below p.line column rest := by
  have mark : p.at? '[' = true := by simp [Position.at?, found]
  -- The brackets are read as a flow collection that ends at once.
  have closed := @reads_flowItems_nil margin fuel { p.advance 1 with fresh := false }
    ('\n' :: (blanks column ++ rest)) (by simp [found])
  exact ⟨Position.atAtom_of_at? mark (by decide), _, reads_atom_items mark closed,
    Position.below_newline (by simp [found]) starts⟩

private theorem reads_noFields
    (found : p.rest = ['\x7b', '\x7d'] ++ '\n' :: (blanks column ++ rest))
    (starts : Starts rest) :
    p.AtAtom ∧ ∃ q, Reads (atom false margin (fuel + 2) {}) p (.mapping none []) q ∧
      q.Below p.line column rest := by
  have mark : p.at? '\x7b' = true := by simp [Position.at?, found]
  have closed := @reads_flowEntries_nil margin fuel { p.advance 1 with fresh := false }
    ('\n' :: (blanks column ++ rest)) (by simp [found])
  exact ⟨Position.atAtom_of_at? mark (by decide), _, reads_atom_entries mark closed,
    Position.below_newline (by simp [found]) starts⟩

theorem reads_atom {value : Value} (isAtom : IsAtom value) (floatFree : value.FloatFree)
    (found : p.rest = nextLine (afterMark (margin + 1) value) (blanks column ++ rest))
    (positive : 1 ≤ margin) (left : column < margin) (starts : Starts rest)
    (right : margin ≤ p.column + 1) :
    p.AtAtom ∧ ∃ q, Reads (atom false margin (fuel + 2) {}) p (Node.ofValue value) q ∧
      q.Below p.line column rest := by
  -- A scalar has one of the spellings, and the empty collections have readers of their own.
  cases value with
  | null =>
    have read := (spelling_null (margin + 1)).reads_value (fuel + 1) found positive left starts right
    rwa [String.ofList_toList] at read
  | bool b =>
    have read := (spelling_bool (margin + 1) b).reads_value (fuel + 1) found positive left starts right
    rwa [String.ofList_toList] at read
  | number n =>
    cases n with
    | whole n =>
      exact (spelling_whole (margin + 1) n).reads_value (fuel + 1) found positive left starts right
    | real x => exact floatFree.elim
  | string s =>
    have read :=
      (spelling_scalarText (margin + 1) s).reads_value (fuel + 1) found positive left starts right
    rwa [String.ofList_toList] at read
  | array items =>
    cases items with
    | nil => exact reads_noItems found starts
    | cons => exact isAtom.elim
  | object fields =>
    cases fields with
    | nil => exact reads_noFields found starts
    | cons => exact isAtom.elim

end Atoms

end Reader

/-! ## The length of keys -/

private theorem length_le_utf8ByteSize (text : List Char) :
    text.length ≤ (String.ofList text).utf8ByteSize := by
  induction text with
  | nil => exact Nat.zero_le _
  | cons c text ih =>
    have positive := Char.utf8Size_pos c
    rw [String.ofList_cons, String.utf8ByteSize_append, String.utf8ByteSize_singleton,
      List.length_cons]
    omega

/-- In one line a character takes up at most six. -/
private theorem Spelling.length_le {indent : Nat} {text written : List Char} {style : Style}
    (spelled : Spelling indent text style written) (oneLine : ∀ c ∈ text, isBreak c = false) :
    written.length ≤ 6 * text.length + 2 := by
  -- Quoting doubles a character at worst, and an escape has at most six characters.
  cases spelled with
  | plain => omega
  | single =>
    have inside := @Scalar.quotedLines_front indent text oneLine []
    have doubled := Scalar.length_quoteWord text
    rw [List.append_nil] at inside
    rw [Printer.singleQuoted, inside]
    simp [Printer.quotedLines]
    omega
  | double =>
    have escaped := Scalar.length_escaped text
    rw [Printer.doubleQuoted, List.length_append, List.length_cons, List.length_singleton]
    omega
  | literal multiline => exact absurd (oneLine '\n' multiline) (by decide)

/-- The colon of a simple key is near enough to be its colon. -/
theorem length_simpleKey {key : String} (indent : Nat) (simple : Printer.isSimpleKey key = true) :
    (Printer.scalarText indent key).length ≤ Reader.keyLimit := by
  simp only [Printer.isSimpleKey, Bool.and_eq_true, Bool.not_eq_true', decide_eq_true_eq] at simple
  obtain ⟨oneLine, short⟩ := simple
  have bound := (spelling_scalarText indent key).length_le
    (by simpa [Printer.isMultiline, isLineEnd_eq_isBreak] using oneLine)
  have bytes := length_le_utf8ByteSize key.toList
  rw [String.ofList_toList] at bytes
  simp only [Printer.keyLimit] at short
  rw [Reader.keyLimit]
  omega

end Blueprint.Yaml
