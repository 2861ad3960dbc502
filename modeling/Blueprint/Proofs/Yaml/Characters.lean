import Blueprint.Proofs.Yaml.Atoms

/-!
# The characters of a rendered value

Whatever characters the texts of a value have, what is written for it consists of printable ones,
which every reader takes.
-/

namespace Blueprint.Yaml.Printer

/-- A text of printable characters. -/
def Printable (text : List Char) : Prop :=
  ∀ c ∈ text, isPrintable c = true

instance : DecidablePred Printable :=
  fun text => inferInstanceAs (Decidable (∀ c ∈ text, isPrintable c = true))

@[simp] theorem printable_nil : Printable [] := by simp [Printable]

@[simp] theorem printable_cons {c : Char} {text : List Char} :
    Printable (c :: text) ↔ isPrintable c = true ∧ Printable text := by
  simp [Printable]

@[simp] theorem printable_append {first second : List Char} :
    Printable (first ++ second) ↔ Printable first ∧ Printable second := by
  simp only [Printable, List.forall_mem_append]

private theorem printable_of_all {text : List Char} (all : text.all isPrintable = true) :
    Printable text :=
  List.all_eq_true.mp all

@[simp] theorem printable_blanks (count : Nat) : Printable (blanks count) := fun c member => by
  rw [List.eq_of_mem_replicate member]
  decide

private theorem printable_nextLine {text line : List Char} (first : Printable text)
    (second : Printable line) :
    Printable (nextLine text line) := by
  rw [nextLine]
  split
  · simp [first, second]
  · simp [first, second]
    decide

private theorem printable_quotedLines {indent : Nat} {text : List Char} (printable : Printable text)
    (lineStart : Bool) : Printable (quotedLines indent lineStart text) := by
  induction text generalizing lineStart with
  | nil =>
    rw [quotedLines]
    split <;> simp
  | cons c text ih =>
    rw [printable_cons] at printable
    rw [quotedLines]
    split
    · simp [printable.1, ih printable.2]
    · have mark : isPrintable '\'' = true := by decide
      split <;> split <;> simp [printable.1, ih printable.2, mark]

private theorem printable_literalLines {indent : Nat} {text : List Char}
    (printable : Printable text)
    (lineStart : Bool) : Printable (literalLines indent lineStart text) := by
  induction text generalizing lineStart with
  | nil => simp [literalLines]
  | cons c text ih =>
    rw [printable_cons] at printable
    rw [literalLines]
    split
    · simp [printable.1, ih printable.2]
    · split <;> simp [printable.1, ih printable.2]

private theorem printable_upperHex (width n : Nat) : Printable (Text.upperHex width n) := by
  induction width generalizing n with
  | zero => simp [Text.upperHex]
  | succ width ih =>
    have digit : ∀ value < 16, isPrintable (Text.upperDigit value) = true := by decide
    simp [Text.upperHex, ih, digit _ (Nat.mod_lt n (by decide))]

private theorem printable_escaped (c : Char) : Printable (escaped c) := by
  have escapes := Scalar.escapes_escaped c
  have backslash : isPrintable '\\' = true := by decide
  generalize escaped c = written at escapes
  cases escapes with
  | self _ _ _ _ printable => simp [printable]
  | letter _ _ printable => simp [printable, backslash]
  | number _ printable => simp [printable, backslash, printable_upperHex]

private theorem printable_doubleQuoted (text : List Char) : Printable (doubleQuoted text) := by
  have mark : isPrintable '"' = true := by decide
  have inside : Printable (text.flatMap escaped) := fun c member => by
    obtain ⟨d, -, member⟩ := List.mem_flatMap.mp member
    exact printable_escaped d c member
  simp [doubleQuoted, mark, inside]

private theorem printable_singleQuoted {indent : Nat} {text : List Char}
    (printable : Printable text) :
    Printable (singleQuoted indent text) := by
  have mark : isPrintable '\'' = true := by decide
  simp [singleQuoted, mark, printable_quotedLines printable]

private theorem printable_literal {indent : Nat} {text : List Char} (printable : Printable text) :
    Printable (literal indent text) := by
  have marks : ∀ c ∈ ['|', '2', '-', '+', '\n'], isPrintable c = true := List.all_eq_true.mp (by decide)
  simp only [List.forall_mem_cons] at marks
  have hint (hinted : Bool) : Printable (Scalar.hintMark hinted) := by
    cases hinted <;> simp [Scalar.hintMark, marks]
  have chomp (chomp : Scalar.Chomp) : Printable (Scalar.chompMark chomp) := by
    cases chomp <;> simp [Scalar.chompMark, marks]
  rw [Scalar.literal_eq]
  simp [marks, hint, chomp, printable_literalLines printable]

private theorem printable_scalarText (indent : Nat) (s : String) :
    Printable (scalarText indent s) := by
  have ofNoEscapes {text : List Char} (noEscapes : needsEscapes text = false) : Printable text := by
    simp only [needsEscapes, Bool.or_eq_false_iff, List.any_eq_false] at noEscapes
    simpa [Printable] using noEscapes.1
  -- Only the spellings without escapes copy the text, and they are chosen for printable texts.
  rw [scalarText]
  split
  · split
    · rename_i literal
      simp only [mayBeLiteral, Bool.and_eq_true, Bool.not_eq_true'] at literal
      exact printable_literal (ofNoEscapes literal.1)
    · exact printable_doubleQuoted _
  · split
    · rename_i plain
      simp only [mayBePlain, Bool.and_eq_true, Bool.not_eq_true'] at plain
      exact ofNoEscapes plain.2.1.1.2
    · split
      · rename_i quoted
        simp only [mayBeSingleQuoted, Bool.and_eq_true, Bool.not_eq_true'] at quoted
        exact printable_singleQuoted (ofNoEscapes quoted.1)
      · exact printable_doubleQuoted _

private theorem isPrintable_of_isDigit {c : Char} (isDigit : c.isDigit = true) :
    isPrintable c = true := by
  -- Digits are compared as words of a fixed size and printable characters as numbers.
  simp only [Char.isDigit, Bool.and_eq_true, decide_eq_true_eq, ge_iff_le,
    UInt32.le_iff_toNat_le] at isDigit
  have low : 48 ≤ c.toNat := isDigit.1
  have high : c.toNat ≤ 57 := isDigit.2
  simp only [isPrintable, Bool.or_eq_true, Bool.and_eq_true, decide_eq_true_eq, beq_iff_eq]
  omega

theorem printable_toText (n : Whole) : Printable n.toText := by
  have digits : Printable (Text.decimal n.value.natAbs) := fun c member =>
    isPrintable_of_isDigit (Json.isDigit_of_mem_decimal member)
  have sign : isPrintable '-' = true := by decide
  rw [Whole.toText]
  split
  · simp [digits, sign]
  · exact digits

private theorem printable_entryText {column : Nat} {key : String} {behindKey behindMark : List Char}
    (first : Printable behindKey) (second : Printable behindMark) :
    Printable (entryText column key behindKey behindMark) := by
  have marks : ∀ c ∈ ['?', ' ', ':'], isPrintable c = true := List.all_eq_true.mp (by decide)
  simp only [List.forall_mem_cons] at marks
  rw [entryText]
  split
  · simp [printable_scalarText, marks, first]
  · exact printable_nextLine (by simp [marks, printable_scalarText]) (by simp [marks, second])

private theorem printable_atom {column : Nat} {value : Value} (isAtom : IsAtom value)
    (floatFree : value.FloatFree) : Printable (afterMark column value) := by
  cases value with
  | null => exact @printable_of_all "null".toList (by decide)
  | bool b =>
    cases b
    · exact @printable_of_all "false".toList (by decide)
    · exact @printable_of_all "true".toList (by decide)
  | number n =>
    cases n with
    | whole n => exact printable_toText n
    | real x => exact floatFree.elim
  | string s => exact printable_scalarText column s
  | array items =>
    cases items with
    | nil => exact @printable_of_all ['[', ']'] (by decide)
    | cons => exact isAtom.elim
  | object fields =>
    cases fields with
    | nil => exact @printable_of_all ['\x7b', '\x7d'] (by decide)
    | cons => exact isAtom.elim

private theorem printable_afterKey_atom {column : Nat} {value : Value} (isAtom : IsAtom value)
    (floatFree : value.FloatFree) : Printable (afterKey column value) := by
  have blank : isPrintable ' ' = true := by decide
  rw [afterKey_atom isAtom, printable_cons]
  exact ⟨blank, printable_atom isAtom floatFree⟩

private theorem printable_line {column : Nat} {text : List Char} (printable : Printable text) :
    Printable ('\n' :: blanks column ++ text) := by
  have line : isPrintable '\n' = true := by decide
  simp [line, printable]

private theorem printable_dash {text : List Char} (printable : Printable text) :
    Printable ('-' :: ' ' :: text) := by
  have marks : isPrintable '-' = true ∧ isPrintable ' ' = true := by decide
  simp [marks, printable]

mutual

private theorem printable_afterKey (indent : Nat) : (value : Value) → value.FloatFree →
    Printable (afterKey indent value)
  | .array (item :: rest), floatFree => printable_line (printable_items indent (item :: rest) floatFree)
  | .object (field :: rest), floatFree =>
    printable_line (printable_fields (indent + 2) (field :: rest) floatFree)
  | .null, floatFree | .bool _, floatFree | .number _, floatFree | .string _, floatFree
  | .array [], floatFree | .object [], floatFree => printable_afterKey_atom trivial floatFree

private theorem printable_afterMark (column : Nat) : (value : Value) → value.FloatFree →
    Printable (afterMark column value)
  | .array (item :: rest), floatFree => printable_items column (item :: rest) floatFree
  | .object (field :: rest), floatFree => printable_fields column (field :: rest) floatFree
  | .null, floatFree | .bool _, floatFree | .number _, floatFree | .string _, floatFree
  | .array [], floatFree | .object [], floatFree => printable_atom trivial floatFree

private theorem printable_items (column : Nat) :
    (values : List Value) → Value.FloatFreeItems values →
    Printable (items column values)
  | [], _ => printable_nil
  | [item], floatFree => printable_dash (printable_afterMark (column + 2) item floatFree.1)
  | item :: next :: rest, floatFree => by
    have others := printable_items column (next :: rest) floatFree.2
    rw [items_cons_cons]
    exact printable_nextLine (printable_dash (printable_afterMark (column + 2) item floatFree.1))
      (printable_append.mpr ⟨printable_blanks column, others⟩)

private theorem printable_fields (column : Nat) : (entries : List (String × Value)) →
    Value.FloatFreeFields entries → Printable (fields column entries)
  | [], _ => printable_nil
  | [(_, value)], floatFree => printable_entryText (printable_afterKey column value floatFree.1)
      (printable_afterMark (column + 2) value floatFree.1)
  | (key, value) :: next :: rest, floatFree => by
    have entry := @printable_entryText column key _ _ (printable_afterKey column value floatFree.1)
      (printable_afterMark (column + 2) value floatFree.1)
    have others := printable_fields column (next :: rest) floatFree.2
    rw [fields_cons_cons]
    exact printable_nextLine entry (printable_append.mpr ⟨printable_blanks column, others⟩)

end

/-- What is written for a value is printable. -/
theorem printable_render {value : Value} (floatFree : value.FloatFree) :
    Printable (render value).toList := by
  unfold render
  rw [String.toList_ofList]
  cases value with
  | string s => exact printable_nextLine (printable_scalarText 2 s) printable_nil
  | null | bool | number | array | object =>
    exact printable_nextLine (printable_afterMark 0 _ floatFree) printable_nil

/-- A printable character may occur in a text and is no mark of the order of bytes. -/
theorem isAllowed_of_isPrintable {c : Char} (printable : isPrintable c = true) :
    isAllowed c = true ∧ c ≠ '\ufeff' := by
  constructor
  · simp only [isPrintable, isAllowed, Bool.or_eq_true, Bool.and_eq_true, decide_eq_true_eq,
      beq_iff_eq, bne_iff_ne] at printable ⊢
    omega
  · rintro rfl
    exact absurd printable (by decide)

end Blueprint.Yaml.Printer
