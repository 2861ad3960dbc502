import Blueprint.Yaml.Parser
import Blueprint.Proofs.Yaml.Literal
import Blueprint.Proofs.Yaml.Plain
import Blueprint.Proofs.Yaml.Quoted

/-!
# Scalars read back

`Spelling` says in which ways a text is written as a scalar. The writer chooses one of them by the
characters of the text, and the reader finds the text in each, be it the key of a mapping or a value
with the rest of the document below it.
-/

namespace Blueprint.Yaml

open Printer (blanks nextLine)
open Scalar (Quotable)

/-! ## Spellings -/

/-- A text is written as a scalar in one of four styles. -/
inductive Spelling (indent : Nat) (text : List Char) : Style → List Char → Prop
  | plain (line : PlainLine text) (ordinary : Printer.startsSpecial text = false) :
      Spelling indent text .plain text
  | single (quotable : Quotable text) :
      Spelling indent text .singleQuoted (Printer.singleQuoted indent text)
  | double : Spelling indent text .doubleQuoted (Printer.doubleQuoted text)
  | literal (multiline : '\n' ∈ text) (noTab : '\t' ∉ text)
      (breaks : ∀ c ∈ text, isBreak c = true → IsPlainBreak c) :
      Spelling indent text .literal (Printer.literal indent text)

theorem Spelling.nonempty {indent : Nat} {text written : List Char} {style : Style}
    (spelled : Spelling indent text style written) : written ≠ [] := by
  cases spelled with
  | plain line => exact line.nonempty
  | single | double => simp [Printer.singleQuoted, Printer.doubleQuoted]
  | literal => simp [Printer.literal]

/-- The style in which a text is written. -/
def textStyle (s : String) : Style :=
  if '\n' ∈ s.toList then if Printer.mayBeLiteral s.toList then .literal else .doubleQuoted
  else if Printer.readsAsText s.toList && Printer.mayBePlain s.toList then .plain
  else if Printer.mayBeSingleQuoted s.toList then .singleQuoted else .doubleQuoted

private theorem isPlainBreak_of_printable {c : Char} (printable : Printer.isPrintable c = true)
    (isEnd : isBreak c = true) : IsPlainBreak c := by
  simp only [isBreak, Bool.or_eq_true, beq_iff_eq] at isEnd
  rcases isEnd with (((rfl | rfl) | rfl) | rfl) | rfl
  all_goals first
    | exact absurd printable (by decide)
    | simp [IsPlainBreak]

/-- What needs no escapes has neither tabs nor line ends that are not written as themselves. -/
private theorem printable_of_noEscapes {text : List Char}
    (noEscapes : Printer.needsEscapes text = false) :
    (∀ c ∈ text, Printer.isPrintable c = true) ∧
      Printer.holdsPair (· == ' ') isBreak text = false := by
  simpa [Printer.needsEscapes, isLineEnd_eq_isBreak] using noEscapes

private theorem noTab_of_printable {text : List Char}
    (printable : ∀ c ∈ text, Printer.isPrintable c = true) :
    '\t' ∉ text :=
  fun member => absurd (printable '\t' member) (by decide)

private theorem quotable_of_mayBe {text : List Char} (oneLine : '\n' ∉ text)
    (quoted : Printer.mayBeSingleQuoted text = true) : Quotable text := by
  simp only [Printer.mayBeSingleQuoted, Bool.and_eq_true, Bool.not_eq_true'] at quoted
  obtain ⟨printable, noBlankBefore⟩ := printable_of_noEscapes quoted.1
  exact
    { noTab := noTab_of_printable printable
      breaks := fun c member isEnd =>
        ⟨isPlainBreak_of_printable (printable c member) isEnd, fun same => oneLine (same ▸ member)⟩
      noBlankBefore
      noBlankBehind := quoted.2 }

/-- The writer keeps to the spellings. -/
theorem spelling_scalarText (indent : Nat) (s : String) :
    Spelling indent s.toList (textStyle s) (Printer.scalarText indent s) := by
  rw [textStyle, Printer.scalarText]
  -- The tests are made in the order the writer makes them, and each gives what its spelling asks
  -- for.
  by_cases multiline : '\n' ∈ s.toList
  · rw [if_pos multiline, if_pos multiline]
    split
    · rename_i literal
      simp only [Printer.mayBeLiteral, Bool.and_eq_true, Bool.not_eq_true'] at literal
      obtain ⟨printable, -⟩ := printable_of_noEscapes literal.1
      exact .literal multiline (noTab_of_printable printable) fun c member =>
        isPlainBreak_of_printable (printable c member)
    · exact .double
  · rw [if_neg multiline, if_neg multiline]
    split
    · rename_i plain
      obtain ⟨readsAsText, plain⟩ := Bool.and_eq_true_iff.mp plain
      have nonempty : s.toList ≠ [] := fun empty => by
        rw [empty] at readsAsText
        exact absurd readsAsText (by decide)
      obtain ⟨line, ordinary⟩ := plainLine_of_mayBePlain nonempty plain
      exact .plain line ordinary
    · split
      · rename_i quoted
        exact .single (quotable_of_mayBe multiline quoted)
      · exact .double

/-- What is read as text is the text itself. -/
private theorem plainValue?_eq_string {text : List Char} {s : String}
    (read : plainValue? text = some (.string s)) : s = String.ofList text := by
  rw [plainValue?] at read
  split at read
  · cases read
  split at read
  · cases read
  split at read
  · cases read
  · cases read
  split at read
  · exact (Value.string.inj (Option.some.inj read)).symm
  split at read
  · rename_i x _
    cases x <;> cases read
  · exact (Value.string.inj (Option.some.inj read)).symm

/-- A text that is written plainly stands for itself. -/
theorem plainValue?_of_plain {s : String} (plain : textStyle s = .plain) :
    plainValue? s.toList = some (.string s) := by
  have readsAsText : Printer.readsAsText s.toList = true := by
    revert plain
    rw [textStyle]
    split
    · split <;> simp
    · split
      · rename_i plain
        exact fun _ => (Bool.and_eq_true_iff.mp plain).1
      · split <;> simp
  -- The value is text, and the only text a plain scalar stands for is its own.
  have isText := (Bool.and_eq_true_iff.mp readsAsText).1
  rw [isPlainText] at isText
  split at isText
  · rename_i text read
    rw [read, plainValue?_eq_string read, String.ofList_toList]
  · cases isText

/-! ## Readers -/

/-- Only one character comes next. -/
theorem Position.at?_of_at? {p : Position} {c d : Char} (found : p.at? c = true) (different : c ≠ d) :
    p.at? d = false := by
  have head : p.rest.head? = some c := by simpa [at?] using found
  simpa [at?, head] using different

namespace Reader

/-- A reader finds a result between two places. Names and prefixes play no part in it. -/
def Reads {α : Type} (reader : Reader α) (p : Position) (result : α) (q : Position) : Prop :=
  reader { position := p } = some (result, { position := q })

theorem Reads.bind {α β : Type} {reader : Reader α} {next : α → Reader β} {p q r : Position} {a : α}
    {b : β} (first : reader.Reads p a q) (second : (next a).Reads q b r) :
    (reader >>= next).Reads p b r := by
  have first : reader { position := p } = some (a, { position := q }) := first
  show (reader { position := p }).bind (fun x => next x.1 x.2) = _
  rw [first]
  exact second

theorem reads_pure {α : Type} (a : α) (p : Position) : Reads (pure a) p a p := rfl

theorem reads_here (p : Position) : Reads here p p p := rfl

private theorem reads_goTo (p q : Position) : Reads (goTo q) p () q := rfl

theorem reads_goOver (count : Nat) (fresh : Bool) (p : Position) :
    Reads (goOver count fresh) p () { p.advance count with fresh } := rfl

theorem reads_skip {inFlow : Bool} {p q : Position} (skipped : p.skip inFlow = q) :
    Reads (skip inFlow) p q q := by
  subst skipped
  rfl

/-- What has no properties is read as it is. -/
theorem reads_named {build : Option String → Reader Node} {p q : Position} {node : Node}
    (reads : (build none).Reads p node q) : (named {} build).Reads p node q :=
  Reads.bind (a := none) rfl (Reads.bind reads (Reads.bind (a := ()) rfl rfl))

private theorem reads_scalar (style : Style) (text : List Char) (p : Position) :
    Reads (scalar {} style text) p (.scalar none style (String.ofList text)) p := by
  refine reads_named ?_
  -- Neither a tag nor a style forces a type, so the node is left without one.
  have noTag : Node.scalarTag? style (String.ofList text) none = none := by
    rw [Node.scalarTag?]
    split <;> rfl
  show some (Node.scalar (Node.scalarTag? style (String.ofList text) none) style _, _) = _
  rw [noTag]

section Atoms

variable {inFlow : Bool} {margin fuel : Nat} {p q : Position} {style : Style} {text : List Char}

theorem reads_quoted (mark : p.at? '\'' = true ∨ p.at? '"' = true)
    (read : Scalar.quoted? p = some (style, text, q)) :
    Reads (atom inFlow margin (fuel + 1) {}) p (.scalar none style (String.ofList text)) q := by
  have others : ∀ c ∈ ['*', '[', '\x7b'], p.at? c = false := by
    rcases mark with mark | mark <;> simp [Position.at?_of_at? mark]
  simp only [List.forall_mem_cons] at others
  rw [atom]
  refine Reads.bind (reads_here p) ?_
  simp only [others, Bool.or_eq_true, mark, read, if_true, Bool.false_eq_true, if_false]
  exact Reads.bind (reads_goTo p q) (reads_scalar style text q)

private theorem reads_block (mark : p.at? '|' = true)
    (read : Scalar.block? margin p = some (style, text, q)) :
    Reads (atom false margin (fuel + 1) {}) p (.scalar none style (String.ofList text)) q := by
  have others : ∀ c ∈ ['*', '[', '\x7b', '\'', '"'], p.at? c = false := by
    simp [Position.at?_of_at? mark]
  simp only [List.forall_mem_cons] at others
  rw [atom]
  refine Reads.bind (reads_here p) ?_
  simp only [others, mark, read, Bool.or_false, Bool.true_or, Bool.not_false, Bool.and_true, if_true,
    Bool.false_eq_true, if_false]
  exact Reads.bind (reads_goTo p q) (reads_scalar style text q)

theorem reads_plain (noMark : ∀ c ∈ Scalar.indicators, p.at? c = false)
    (starts : Scalar.startsPlain inFlow p = true)
    (read : Scalar.plain? inFlow margin p = some (text, q)) :
    Reads (atom inFlow margin (fuel + 1) {}) p (.scalar none .plain (String.ofList text)) q := by
  simp only [Scalar.indicators, List.forall_mem_cons] at noMark
  rw [atom]
  refine Reads.bind (reads_here p) ?_
  simp only [noMark, starts, read, Bool.or_false, Bool.and_false, if_true, Bool.false_eq_true,
    if_false]
  exact Reads.bind (reads_goTo p q) (reads_scalar .plain text q)

end Atoms

end Reader

/-! ## Places of scalars -/

/-- A place where a node starts that is no block collection and has neither a name nor a tag. -/
structure Position.AtAtom (p : Position) : Prop where
  nonempty : p.rest ≠ []
  starts : Starts p.rest
  inside : p.atDocumentBoundary = false
  noDash : p.atMark '-' = false
  noQuestion : p.atMark '?' = false
  plainMarks : ∀ c ∈ ['&', '!', '%'], p.at? c = false

private theorem PlainLine.last {text : List Char} (line : PlainLine text) :
    ∀ c ∈ text.getLast?, isBreak c = false :=
  fun c member => (line.chars c (List.mem_of_getLast? member)).2

theorem Starts.startsWord {text : List Char} (starts : Starts text) : StartsWord text := by
  intro c member
  cases text with
  | nil => cases member
  | cons d text =>
    obtain rfl : d = c := by simpa using member
    exact ⟨starts.1, starts.2.1⟩

/-- The marks with which atoms start that are not plain scalars. -/
def openingMarks : List Char :=
  ['\'', '"', '|', '[', '\x7b']

theorem Position.atAtom_of_at? {p : Position} {c : Char} (head : p.at? c = true)
    (mark : c ∈ openingMarks) : p.AtAtom := by
  obtain ⟨rest, found⟩ : ∃ rest, p.rest = c :: rest := by
    cases here : p.rest with
    | nil => simp [at?, here] at head
    | cons d rest => exact ⟨rest, by simpa [at?, here] using head⟩
  simp only [openingMarks, List.mem_cons, List.not_mem_nil, or_false] at mark
  constructor
  · simp [found]
  · rw [found]
    rcases mark with rfl | rfl | rfl | rfl | rfl <;> exact ⟨rfl, rfl, by decide⟩
  all_goals
    rcases mark with rfl | rfl | rfl | rfl | rfl <;>
      simp [Position.atDocumentBoundary, Position.atDocumentMark, Position.atMark, Position.at?, found,
        List.isPrefixOf]

private theorem Position.atAtom_of_ordinary {p : Position} {text after : List Char} {margin : Nat}
    {finish : Position → Position} (line : PlainLine text)
    (ordinary : Printer.startsSpecial text = false) (ended : Scalar.PlainEnd margin after finish)
    (found : p.rest = text ++ after) : p.AtAtom := by
  have noIndicator : ∀ c ∈ Scalar.indicators, p.at? c = false := fun c =>
    Scalar.at?_of_ordinary line.nonempty ordinary found
  have startsWord := found ▸ @Scalar.startsWord_of_line text after line
  have nonempty : p.rest ≠ [] := by simp [found, line.nonempty]
  constructor
  · exact nonempty
  -- A word starts with neither a blank nor a line end, and the comment mark is an indicator.
  · have noComment := noIndicator '#' (by decide)
    rw [Position.at?] at noComment
    cases here : p.rest with
    | nil => contradiction
    | cons c rest =>
      rw [here] at startsWord noComment
      obtain ⟨noSpace, noBreak⟩ := startsWord c rfl
      exact ⟨noSpace, noBreak, by simpa using noComment⟩
  · exact Scalar.atDocumentBoundary_of_ordinary line.nonempty ordinary found ended
  · exact Scalar.atMark_of_ordinary line.nonempty ordinary found (by decide)
  · exact Scalar.atMark_of_ordinary line.nonempty ordinary found (by decide)
  · simp [noIndicator '&' (by decide), noIndicator '!' (by decide), noIndicator '%' (by decide)]

namespace Spelling

open Reader

variable {margin : Nat} {text written : List Char} {style : Style} {p : Position}

/-- A text is read in front of the colon that makes it a key. -/
theorem reads_key {indent : Nat} {value : List Char} (spelled : Spelling indent text style written)
    (fuel : Nat)
    (oneLine : ∀ c ∈ text, isBreak c = false) (found : p.rest = written ++ ':' :: value)
    (ends : endsWord value = true) (indented : indent ≠ 0) (right : margin ≤ p.column + 1) :
    p.AtAtom ∧ (p.at? '|' = false ∧ p.at? '>' = false) ∧
      Reads (atom false margin (fuel + 1) {}) p (.scalar none style (String.ofList text))
        { p.advance written.length with fresh := false } := by
  -- A key is on one line, so of the four spellings the literal one is excluded.
  cases spelled with
  | plain line ordinary =>
    have ended := @Scalar.PlainEnd.colon margin value ends
    have atAtom := Position.atAtom_of_ordinary line ordinary ended found
    have read := Scalar.plain?_line line ended found atAtom.inside right
    have noMark : ∀ c ∈ Scalar.indicators, p.at? c = false := fun c =>
      Scalar.at?_of_ordinary line.nonempty ordinary found
    exact ⟨atAtom, ⟨noMark '|' (by decide), noMark '>' (by decide)⟩, reads_plain noMark
      (Scalar.startsPlain_of_ordinary line.nonempty ordinary found line) read⟩
  | single quotable =>
    obtain ⟨q, read, -, -, -, here⟩ := Scalar.quoted?_single quotable found (by simp) indented
    have mark : p.at? '\'' = true := by rw [Position.at?, found, Printer.singleQuoted]; rfl
    rw [here oneLine] at read
    exact ⟨Position.atAtom_of_at? mark (by decide), by simp [Position.at?_of_at? mark],
      reads_quoted (.inl mark) read⟩
  | double =>
    have read := Scalar.quoted?_double found
    have mark : p.at? '"' = true := by rw [Position.at?, found, Printer.doubleQuoted]; rfl
    exact ⟨Position.atAtom_of_at? mark (by decide), by simp [Position.at?_of_at? mark],
      reads_quoted (.inr mark) read⟩
  | literal multiline => exact absurd (oneLine '\n' multiline) (by decide)

/-- A text is read as a value that something else stands below. -/
theorem reads_value {column : Nat} {rest : List Char}
    (spelled : Spelling (margin + 1) text style written) (fuel : Nat)
    (found : p.rest = nextLine written (blanks column ++ rest)) (positive : 1 ≤ margin)
    (left : column < margin) (starts : Starts rest) (right : margin ≤ p.column + 1) :
    p.AtAtom ∧ ∃ q, Reads (atom false margin (fuel + 1) {}) p
      (.scalar none style (String.ofList text)) q ∧ q.Below p.line column rest := by
  -- A plain or a literal scalar is read past its line end, a quoted one up to it.
  cases spelled with
  | plain line ordinary =>
    have found : p.rest = text ++ '\n' :: (blanks column ++ rest) :=
      found.trans (nextLine_word line.last)
    have ended := Scalar.PlainEnd.line left starts.startsWord
    have atAtom := Position.atAtom_of_ordinary line ordinary ended found
    have read := Scalar.plain?_line line ended found atAtom.inside right
    refine ⟨atAtom, _, reads_plain (fun c => Scalar.at?_of_ordinary line.nonempty ordinary found)
      (Scalar.startsPlain_of_ordinary line.nonempty ordinary found line) read, ?_⟩
    exact Position.below_of_starts starts rfl (Nat.lt_succ_self p.line)
  | single quotable =>
    have found : p.rest = Printer.singleQuoted (margin + 1) text ++ '\n' :: (blanks column ++ rest) :=
      found.trans (nextLine_word (by simp [Printer.singleQuoted, List.getLast?_cons, isBreak]))
    obtain ⟨q, read, behind, below, -, -⟩ :=
      Scalar.quoted?_single quotable found (by simp) (Nat.succ_ne_zero margin)
    have mark : p.at? '\'' = true := by rw [Position.at?, found, Printer.singleQuoted]; rfl
    exact ⟨Position.atAtom_of_at? mark (by decide), q,
      reads_quoted (.inl mark) read,
      (Position.below_newline behind starts).mono below⟩
  | double =>
    have found : p.rest = Printer.doubleQuoted text ++ '\n' :: (blanks column ++ rest) :=
      found.trans (nextLine_word (by simp [Printer.doubleQuoted, List.getLast?_cons, isBreak]))
    have read := Scalar.quoted?_double found
    have mark : p.at? '"' = true := by rw [Position.at?, found, Printer.doubleQuoted]; rfl
    refine ⟨Position.atAtom_of_at? mark (by decide), _,
      reads_quoted (.inr mark) read, ?_⟩
    exact Position.below_newline (by simp [found]) starts
  | literal multiline noTab breaks =>
    have nonempty : text ≠ [] := List.ne_nil_of_mem multiline
    obtain ⟨q, read, atRest, atColumn, fresh, below⟩ := Scalar.block?_literal positive
      (Nat.le_of_lt left) starts.startsWord nonempty noTab breaks found
    have mark : p.at? '|' = true := by
      rw [Position.at?, found, Scalar.literal_eq, nextLine]
      split <;> rfl
    refine ⟨Position.atAtom_of_at? mark (by decide), q,
      reads_block mark read, ?_⟩
    rw [← atRest, ← atColumn]
    exact Position.below_of_starts (atRest ▸ starts) fresh below

end Spelling
end Blueprint.Yaml
