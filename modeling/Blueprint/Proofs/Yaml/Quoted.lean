import Blueprint.Proofs.Yaml.Positions
import Mathlib.Algebra.Group.Nat.Defs

/-!
# Quoted scalars read back

Between single quotation marks a text stands as it is, but for the marks in it, which are doubled,
and the indentation after its line ends. Between double quotation marks everything is escaped that
the reader would not take as it is. In both, blanks and line ends are read as gaps between words,
and what a gap stands for is what was written.
-/

namespace Blueprint.Yaml

open Printer (blanks quotedLines escaped holdsPair)

namespace Scalar

/-! ## Pairs of characters -/

private theorem holdsPair_append {first second : Char → Bool} (front : List Char) {text : List Char}
    (none : holdsPair first second (front ++ text) = false) : holdsPair first second text = false := by
  induction front with
  | nil => exact none
  | cons a front ih =>
    refine ih ?_
    cases behind : front ++ text with
    | nil => rfl
    | cons b rest =>
      rw [List.cons_append, behind, holdsPair, Bool.or_eq_false_iff] at none
      exact none.2

/-- What follows the first character of a pair is not the second one. -/
private theorem not_second_of_first {first second : Char → Bool} {front text : List Char} {a : Char}
    (none : holdsPair first second (front ++ a :: text) = false) (isFirst : first a = true) :
    ∀ b ∈ text.head?, second b = false := by
  intro b member
  cases text with
  | nil => cases member
  | cons c text =>
    cases member
    have here := holdsPair_append front none
    rw [holdsPair, Bool.or_eq_false_iff] at here
    simpa [isFirst] using here.1

private theorem within_of_column {p : Position} (inside : p.column ≠ 0) (nonempty : p.rest ≠ []) :
    (p.atDocumentBoundary || p.rest.isEmpty) = false := by
  simp [Position.atDocumentBoundary_of_column inside, nonempty]

/-! ## Single quotation marks -/

/-- A word between single quotation marks. -/
def quoteWord (word : List Char) : List Char :=
  word.flatMap fun c => if c = '\'' then ['\'', '\''] else [c]

/-- A text that may stand between single quotation marks. Line ends that are folded are not in
it. -/
structure Quotable (text : List Char) : Prop where
  noTab : '\t' ∉ text
  breaks : ∀ c ∈ text, isBreak c = true → IsPlainBreak c ∧ c ≠ '\n'
  noBlankBefore : holdsPair (· == ' ') isBreak text = false
  noBlankBehind : holdsPair isBreak (· == ' ') text = false

private theorem Quotable.of_append (front : List Char) {text : List Char}
    (quotable : Quotable (front ++ text)) :
    Quotable text where
  noTab member := quotable.noTab (List.mem_append_right front member)
  breaks c member := quotable.breaks c (List.mem_append_right front member)
  noBlankBefore := holdsPair_append front quotable.noBlankBefore
  noBlankBehind := holdsPair_append front quotable.noBlankBehind

theorem quotedLines_front {indent : Nat} {front : List Char} (oneLine : ∀ c ∈ front, isBreak c = false)
    (rest : List Char) :
    quotedLines indent false (front ++ rest) = quoteWord front ++ quotedLines indent false rest := by
  induction front with
  | nil => rfl
  | cons c front ih =>
    obtain ⟨noBreak, others⟩ := List.forall_mem_cons.mp oneLine
    rw [List.cons_append, quotedLines, isLineEnd_eq_isBreak, if_neg (by simp [noBreak]), ih others]
    simp [quoteWord]

private theorem quotedLines_breaks {indent : Nat} {lineStart : Bool} {c : Char}
    {run rest : List Char}
    (breaks : ∀ d ∈ c :: run, isBreak d = true) (stop : ∀ d ∈ rest.head?, isBreak d = false) :
    quotedLines indent lineStart (c :: (run ++ rest)) =
      c :: (run ++ (blanks indent ++ quotedLines indent false rest)) := by
  induction run generalizing c lineStart with
  | nil =>
    rw [quotedLines, isLineEnd_eq_isBreak, if_pos (breaks c (by simp))]
    cases rest with
    | nil => simp [quotedLines]
    | cons d rest =>
      have noBreak := stop d rfl
      simp [quotedLines, isLineEnd_eq_isBreak, noBreak]
  | cons d run ih =>
    obtain ⟨isBreak, others⟩ := List.forall_mem_cons.mp breaks
    rw [quotedLines, isLineEnd_eq_isBreak, if_pos isBreak]
    exact congrArg (c :: ·) (ih others)

private theorem quoteWord_blanks (count : Nat) : quoteWord (blanks count) = blanks count := by
  induction count with
  | zero => rfl
  | succ count ih => exact congrArg (' ' :: ·) ih

theorem length_quoteWord (word : List Char) : (quoteWord word).length ≤ 2 * word.length := by
  induction word with
  | nil => simp [quoteWord]
  | cons c word ih =>
    have one : (if c = '\'' then ['\'', '\''] else [c]).length ≤ 2 := by
      split <;> simp
    rw [quoteWord] at ih ⊢
    rw [List.flatMap_cons, List.length_append, List.length_cons]
    omega

/-- The reader of a word undoes the doubling. -/
private theorem singleWord_append {word : List Char}
    (chars : ∀ c ∈ word, isSpace c = false ∧ isBreak c = false) (rest : List Char) :
    singleWord (quoteWord word ++ rest) =
      (word ++ (singleWord rest).1, (quoteWord word).length + (singleWord rest).2.1,
        (singleWord rest).2.2) := by
  -- By the word, with the closing mark or the gap still in what follows it.
  induction word with
  | nil => simp [quoteWord]
  | cons c word ih =>
    obtain ⟨⟨noSpace, noBreak⟩, others⟩ := List.forall_mem_cons.mp chars
    by_cases mark : c = '\''
    · subst mark
      have doubled : quoteWord ('\'' :: word) = '\'' :: '\'' :: quoteWord word := rfl
      rw [doubled, List.cons_append, List.cons_append, singleWord, ih others]
      simp [Nat.add_right_comm]
    · have same : quoteWord (c :: word) = c :: quoteWord word := by simp [quoteWord, mark]
      rw [same, List.cons_append, singleWord]
      · simp [mark, noSpace, noBreak, ih others, Nat.add_right_comm]
      · simp [mark]

private theorem singleWord_closed {after : List Char} (single : after.head? ≠ some '\'') :
    singleWord ('\'' :: after) = ([], 1, true) := by
  cases after with
  | nil => rfl
  | cons c after =>
    have different : c ≠ '\'' := by simpa using single
    rw [singleWord]
    · simp
    · simp [different]

private theorem singleWord_gap {rest : List Char} (gap : endsWord rest = true)
    (nonempty : rest ≠ []) :
    singleWord rest = ([], 0, false) := by
  cases rest with
  | nil => rfl
  | cons c rest =>
    have blank : (isSpace c || isBreak c) = true := gap
    have noMark : c ≠ '\'' := by
      rintro rfl
      simp [isSpace, isBreak] at blank
    rw [singleWord]
    · simp [noMark, blank]
    · simp [noMark]

/-- Where a reader is left behind a quoted text: at what follows, on the same line or further down.
A text without line ends is left in its own line. -/
structure LeftBehind (p q : Position) (text written after : List Char) : Prop where
  rest : q.rest = after
  line : p.line ≤ q.line
  fresh : q.fresh = p.fresh
  oneLine : (∀ c ∈ text, isBreak c = false) → q = p.advance (written.length + 1)

private theorem startsWord_quotedLines {indent : Nat} {text after : List Char} (noTab : '\t' ∉ text)
    (noBlank : text.head? ≠ some ' ') (noBreak : ∀ c ∈ text.head?, isBreak c = false) :
    StartsWord (quotedLines indent false text ++ '\'' :: after) := by
  intro d member
  cases text with
  | nil =>
    obtain rfl : '\'' = d := by simpa [quotedLines] using member
    decide
  | cons c text =>
    have noBreak := noBreak c rfl
    have front := @quotedLines_front indent [c] (by simpa using noBreak) text
    rw [List.singleton_append] at front
    rw [front] at member
    by_cases mark : c = '\''
    · obtain rfl : '\'' = d := by simpa [quoteWord, mark] using member
      decide
    · obtain rfl : c = d := by simpa [quoteWord, mark] using member
      have notBlank : c ≠ ' ' := by simpa using noBlank
      have notTab : c ≠ '\t' := fun same => noTab (by simp [same])
      simp [isSpace, notBlank, notTab, noBreak]

/-- The reader goes over a word and the gap behind it. -/
private theorem singleFrom_gap {fuel : Nat} {kept word rest : List Char} {gap : Gap}
    {p q : Position}
    (found : p.rest = quoteWord word ++ rest)
    (chars : ∀ c ∈ word, isSpace c = false ∧ isBreak c = false) (inside : p.column ≠ 0)
    (ends : endsWord rest = true) (nonempty : rest ≠ [])
    (read : Gap.read 0 {} (p.advance (quoteWord word).length) = some (gap, q)) :
    singleFrom (fuel + 1) kept p = singleFrom fuel (kept ++ word ++ gap.folded) q := by
  have within := within_of_column inside (show p.rest ≠ [] by simp [found, nonempty])
  have taken := singleWord_append chars rest
  rw [singleWord_gap ends nonempty] at taken
  rw [singleFrom, within, found, taken]
  simp [read]

/-- Blanks between words stand as they are. -/
private theorem singleFrom_blanks {fuel count : Nat} {kept word rest : List Char} {p : Position}
    (found : p.rest = quoteWord word ++ (blanks (count + 1) ++ rest))
    (chars : ∀ c ∈ word, isSpace c = false ∧ isBreak c = false) (inside : p.column ≠ 0)
    (starts : StartsWord rest) :
    singleFrom (fuel + 1) kept p = singleFrom fuel (kept ++ word ++ blanks (count + 1))
      (p.advance ((quoteWord word).length + (count + 1))) := by
  have here : (p.advance (quoteWord word).length).rest = blanks (count + 1) ++ rest := by
    rw [Position.rest_advance, found, List.drop_left' rfl]
  have read := @Gap.read_blanks 0 (count + 1) _ _ here starts
  rw [Position.advance_advance] at read
  rw [singleFrom_gap found chars inside rfl (by simp [blanks, List.replicate_succ]) read]
  simp [Gap.folded]

/-- Line ends between words stand as they are, and the blanks behind them are indentation. -/
private theorem singleFrom_breaks {indent fuel : Nat} {kept word run rest : List Char} {c : Char}
    {p : Position} (found : p.rest = quoteWord word ++ (c :: (run ++ (blanks indent ++ rest))))
    (chars : ∀ d ∈ word, isSpace d = false ∧ isBreak d = false) (inside : p.column ≠ 0)
    (plain : ∀ d ∈ c :: run, IsPlainBreak d) (notFolded : c ≠ '\n') (starts : StartsWord rest) :
    singleFrom (fuel + 1) kept p = singleFrom fuel (kept ++ word ++ (c :: run))
      ⟨rest, p.line + 1 + run.length, indent,
        p.index + (quoteWord word).length + 1 + run.length + indent, p.fresh⟩ := by
  have here : (p.advance (quoteWord word).length).rest = c :: (run ++ (blanks indent ++ rest)) := by
    rw [Position.rest_advance, found, List.drop_left' rfl]
  have read := @Gap.read_breaks 0 indent _ c run _ plain here starts
  have isEnd : isBreak c = true := (plain c List.mem_cons_self).isBreak
  rw [singleFrom_gap found chars inside (by simp [endsWord, isEnd]) (by simp) read]
  simp [Gap.folded, notFolded]

/-- A quotable text is a word, or a word, a gap of blanks or of line ends, and another one. -/
private theorem Quotable.split {text : List Char} (quotable : Quotable text) :
    ∃ word, (∀ c ∈ word, isSpace c = false ∧ isBreak c = false) ∧
      (text = word ∨
        (∃ gap rest, text = word ++ (gap ++ rest) ∧ Quotable rest ∧ rest.head? ≠ some ' ' ∧
          (∀ c ∈ rest.head?, isBreak c = false) ∧
          ((∃ count, gap = blanks (count + 1)) ∨
            ∃ c run, gap = c :: run ∧ ∀ d ∈ c :: run, isBreak d = true))) := by
  -- A gap is either blanks or line ends: a text in which the two meet is not quoted singly. So
  -- what stands behind a gap of one kind starts with neither kind.
  obtain ⟨word, behind, rfl, noGap, stop⟩ := exists_front (fun c => !(isSpace c || isBreak c)) text
  have chars : ∀ c ∈ word, isSpace c = false ∧ isBreak c = false := by
    simpa using noGap
  refine ⟨word, chars, ?_⟩
  cases behind with
  | nil => exact .inl (List.append_nil word)
  | cons c behind =>
    refine .inr ?_
    cases isEnd : isBreak c with
    | false =>
      have noTab : c ≠ '\t' := fun same => quotable.noTab (by simp [same])
      have isBlank : c = ' ' := by
        have gap : isSpace c = true := by simpa [isEnd] using stop c rfl
        simpa [isSpace, noTab] using gap
      subst isBlank
      obtain ⟨count, rest, rfl, noBlank⟩ := exists_blanks behind
      have last : word ++ ' ' :: (blanks count ++ rest) = word ++ blanks count ++ ' ' :: rest := by
        rw [cons_blanks_append, List.append_assoc]
      have noBreak := not_second_of_first (last ▸ quotable.noBlankBefore) rfl
      have others : Quotable rest := Quotable.of_append (word ++ blanks (count + 1))
        (by rw [List.append_assoc]; exact quotable)
      exact ⟨blanks (count + 1), rest, rfl, others, noBlank, noBreak, .inl ⟨count, rfl⟩⟩
    | true =>
      obtain ⟨run, rest, rfl, breaks, stop⟩ := exists_front isBreak behind
      have allBreaks : ∀ d ∈ c :: run, isBreak d = true := List.forall_mem_cons.mpr ⟨isEnd, breaks⟩
      obtain ⟨front, a, split⟩ : ∃ front a, c :: run = front ++ [a] :=
        ⟨_, _, (List.dropLast_concat_getLast (List.cons_ne_nil c run)).symm⟩
      have last : word ++ c :: (run ++ rest) = word ++ front ++ a :: rest := by
        rw [← List.cons_append, split]
        simp
      have isLast : isBreak a = true := allBreaks a (by simp [split])
      have noBlank := not_second_of_first (last ▸ quotable.noBlankBehind) isLast
      have others : Quotable rest := Quotable.of_append (word ++ c :: run)
        (by rw [List.append_assoc]; exact quotable)
      refine ⟨c :: run, rest, rfl, others, fun isBlank => ?_, stop, .inr ⟨c, run, rfl, allBreaks⟩⟩
      simpa using noBlank ' ' isBlank

/-- The reader goes over the last word and the mark that closes it. -/
private theorem singleFrom_word {fuel : Nat} {kept word after : List Char} {p : Position}
    (found : p.rest = quoteWord word ++ '\'' :: after)
    (chars : ∀ c ∈ word, isSpace c = false ∧ isBreak c = false) (single : after.head? ≠ some '\'')
    (inside : p.column ≠ 0) :
    singleFrom (fuel + 1) kept p = some (kept ++ word, p.advance ((quoteWord word).length + 1)) := by
  have within := within_of_column inside (show p.rest ≠ [] by simp [found])
  rw [singleFrom, within, found, singleWord_append chars, singleWord_closed single]
  simp

private theorem quotedLines_blanks {indent count : Nat} {word : List Char}
    (chars : ∀ c ∈ word, isBreak c = false) (rest : List Char) :
    quotedLines indent false (word ++ (blanks count ++ rest)) =
      quoteWord word ++ (blanks count ++ quotedLines indent false rest) := by
  have oneLine : ∀ d ∈ blanks count, isBreak d = false := by
    intro d member
    rw [List.eq_of_mem_replicate member]
    rfl
  rw [quotedLines_front chars, quotedLines_front oneLine, quoteWord_blanks]

/-- What is left behind a text is left behind the text with a word and blanks in front. -/
private theorem LeftBehind.behind_blanks {p q : Position} {word text written after : List Char}
    {count : Nat}
    (left : LeftBehind (p.advance ((quoteWord word).length + count)) q text written after) :
    LeftBehind p q (word ++ (blanks count ++ text)) (quoteWord word ++ (blanks count ++ written))
      after where
  rest := left.rest
  line := left.line
  fresh := left.fresh
  oneLine noBreak := by
    rw [left.oneLine fun d member => noBreak d (by simp [member]), Position.advance_advance]
    congr 1
    simp only [List.length_append, length_blanks]
    omega

/-- A text with a line end need not be left in its own line. -/
private theorem LeftBehind.behind_break {p p' q : Position}
    {text text' written written' after : List Char}
    {c : Char} (left : LeftBehind p' q text written after) (lower : p.line ≤ p'.line)
    (fresh : p'.fresh = p.fresh) (member : c ∈ text') (isEnd : isBreak c = true) :
    LeftBehind p q text' written' after where
  rest := left.rest
  line := Nat.le_trans lower left.line
  fresh := left.fresh.trans fresh
  oneLine noBreak := by
    rw [noBreak c member] at isEnd
    cases isEnd

/-- A text between single quotation marks is read back. -/
private theorem singleFrom_quotedLines {indent fuel : Nat} {kept text after : List Char}
    {p : Position}
    (quotable : Quotable text) (found : p.rest = quotedLines indent false text ++ '\'' :: after)
    (single : after.head? ≠ some '\'') (inside : p.column ≠ 0) (indented : indent ≠ 0)
    (enough : text.length < fuel) :
    ∃ q, singleFrom fuel kept p = some (kept ++ text, q) ∧
      LeftBehind p q text (quotedLines indent false text) after := by
  -- A word and the gap behind it use one unit of fuel, and every gap has a character.
  induction fuel generalizing kept text p with
  | zero => exact absurd enough (Nat.not_lt_zero _)
  | succ fuel ih =>
    obtain ⟨word, chars, rfl | ⟨gap, rest, rfl, others, noBlank, noBreak, kind⟩⟩ := quotable.split
    · have written : quotedLines indent false text = quoteWord text := by
        have front := @quotedLines_front indent text (fun c member => (chars c member).2) []
        simpa only [List.append_nil, quotedLines, Bool.false_eq_true, if_false] using front
      rw [written] at found ⊢
      refine ⟨_, singleFrom_word found chars single inside, ?_, Nat.le_refl _, rfl, fun _ => rfl⟩
      simp [found, List.drop_append]
    · have starts := @startsWord_quotedLines indent rest after others.noTab noBlank noBreak
      have shorter : gap ≠ [] → rest.length < fuel := fun nonempty => by
        have long := List.length_pos_iff.mpr nonempty
        simp only [List.length_append] at enough
        omega
      -- Blanks stay on the line of the word; line ends lead to another one, behind its indentation.
      rcases kind with ⟨count, rfl⟩ | ⟨c, run, rfl, breaks⟩
      · rw [quotedLines_blanks fun c member => (chars c member).2] at found ⊢
        rw [List.append_assoc, List.append_assoc] at found
        have behind : (p.advance ((quoteWord word).length + (count + 1))).rest =
            quotedLines indent false rest ++ '\'' :: after := by
          rw [← Position.advance_advance, Position.rest_advance, Position.rest_advance, found,
            List.drop_left' rfl, List.drop_left' (length_blanks _)]
        obtain ⟨q, done, left⟩ := @ih (kept ++ word ++ blanks (count + 1)) rest _ others behind
          (by simp) (shorter (by simp [blanks]))
        refine ⟨q, ?_, left.behind_blanks⟩
        rw [singleFrom_blanks found chars inside starts]
        simpa using done
      · have plain : ∀ d ∈ c :: run, IsPlainBreak d ∧ d ≠ '\n' := fun d member =>
          quotable.breaks d (List.mem_append_right _ (List.mem_append_left _ member)) (breaks d member)
        have found : p.rest = quoteWord word ++
            (c :: (run ++ (blanks indent ++ (quotedLines indent false rest ++ '\'' :: after)))) := by
          rw [found, quotedLines_front fun c member => (chars c member).2, List.cons_append,
            quotedLines_breaks breaks noBreak]
          simp only [List.cons_append, List.append_assoc]
        obtain ⟨q, done, left⟩ := @ih (kept ++ word ++ (c :: run)) rest
          ⟨quotedLines indent false rest ++ '\'' :: after, p.line + 1 + run.length, indent,
            p.index + (quoteWord word).length + 1 + run.length + indent, p.fresh⟩
          others rfl indented (shorter (List.cons_ne_nil c run))
        refine ⟨q, ?_, left.behind_break ?_ rfl (by simp) (breaks c List.mem_cons_self)⟩
        · rw [singleFrom_breaks found chars inside (fun d member => (plain d member).1)
            (plain c List.mem_cons_self).2 starts]
          simpa using done
        · show p.line ≤ p.line + 1 + run.length
          omega

/-! ## Double quotation marks -/

private theorem digitValue?_upperDigit :
    ∀ value < 16, Text.digitValue? 16 (Text.upperDigit value) = some value := by
  decide

/-- The digits of a number in base sixteen continue a number that was begun. -/
private theorem foldlM_upperHex (width n start : Nat) :
    (Text.upperHex width n).foldlM (fun value c => (Text.digitValue? 16 c).map (value * 16 + ·)) start =
      some (start * 16 ^ width + n % 16 ^ width) := by
  -- The last digit is written last, so the recursion of the writer splits the number from the
  -- right and the fold of the reader goes on behind the digits before it.
  induction width generalizing n with
  | zero => simp [Text.upperHex, Nat.mod_one]
  | succ width ih =>
    have digit := digitValue?_upperDigit (n % 16) (Nat.mod_lt n (by decide))
    rw [Text.upperHex, List.foldlM_append, ih]
    simp only [Option.bind_eq_bind, Option.bind_some, List.foldlM_cons, digit, Option.map_some,
      List.foldlM_nil, Option.pure_def, Option.some.injEq]
    rw [Nat.pow_succ', Nat.mod_mul, Nat.add_mul, Nat.mul_assoc, Nat.mul_comm (16 ^ width) 16]
    omega

private theorem length_upperHex (width n : Nat) : (Text.upperHex width n).length = width := by
  induction width generalizing n with
  | zero => rfl
  | succ width ih => simp [Text.upperHex, ih]

theorem natOfDigits?_of_nonempty {base : Nat} {digits : List Char} (nonempty : digits ≠ []) :
    Text.natOfDigits? base digits =
      digits.foldlM (fun value c => (Text.digitValue? base c).map (value * base + ·)) 0 := by
  unfold Text.natOfDigits?
  split
  · contradiction
  · rfl

private theorem natOfDigits?_upperHex {width n : Nat} (positive : 0 < width)
    (fits : n < 16 ^ width) :
    Text.natOfDigits? 16 (Text.upperHex width n) = some n := by
  have nonempty : Text.upperHex width n ≠ [] := by
    rw [← List.length_pos_iff, length_upperHex]
    exact positive
  rw [natOfDigits?_of_nonempty nonempty, foldlM_upperHex, Nat.mod_eq_of_lt fits, Nat.zero_mul,
    Nat.zero_add]

/-- The numbers of the characters that have an escape of one letter. -/
def lettered : List Nat :=
  [0, 7, 8, 9, 0x0A, 0x0B, 0x0C, 0x0D, 0x1B, 0x22, 0x5C, 0x85, 0x2028, 0x2029]

/-- A character is written as itself, by a letter or by its number. -/
inductive Escapes (c : Char) : List Char → Prop
  | self (noSpace : c ≠ '\t') (noBreak : isBreak c = false) (noQuote : c ≠ '"')
    (noBackslash : c ≠ '\\') (printable : Printer.isPrintable c = true) : Escapes c [c]
  | letter {letter : Char} (noBreak : isBreak letter = false) (meant : escapeOf? letter = some c)
    (printable : Printer.isPrintable letter = true) : Escapes c ['\\', letter]
  | number {letter : Char} {width : Nat} (noBreak : isBreak letter = false)
    (printable : Printer.isPrintable letter = true)
    (noLetter : escapeOf? letter = none) (hasWidth : escapeWidth? letter = some width)
    (positive : 0 < width) (short : width ≤ 4) (fits : c.toNat < 16 ^ width) :
    Escapes c ('\\' :: letter :: Text.upperHex width c.toNat)

private theorem escapes_lettered :
    ∀ n ∈ lettered, Escapes (Char.ofNat n) (escaped (Char.ofNat n)) := by
  simp only [lettered, List.forall_mem_cons, List.not_mem_nil, false_imp_iff, implies_true, and_true]
  refine ⟨?_, ?_, ?_, ?_, ?_, ?_, ?_, ?_, ?_, ?_, ?_, ?_, ?_, ?_⟩
  all_goals exact .letter rfl rfl rfl

/-- What does not fit into four digits is written as itself. -/
private theorem printable_of_wide {c : Char} (wide : 0xFFFF < c.toNat) :
    (Printer.isPrintable c && !Printer.isLineEnd c && c != '"' && c != '\\') = true := by
  have different {d : Char} (narrow : d.toNat ≤ 0xFFFF) : c ≠ d := by
    rintro rfl
    omega
  have narrow : ['\n', '\r', '\x85', '\u2028', '\u2029', '"', '\\'].all
      (fun d => d.toNat ≤ 0xFFFF) = true := by decide
  have others : ∀ d ∈ ['\n', '\r', '\x85', '\u2028', '\u2029', '"', '\\'], c ≠ d :=
    fun d member => different (of_decide_eq_true (List.all_eq_true.mp narrow d member))
  simp only [List.forall_mem_cons] at others
  have printable : Printer.isPrintable c = true := by
    simp [Printer.isPrintable]
    omega
  simp [printable, Printer.isLineEnd, others]

theorem escapes_escaped (c : Char) : Escapes c (escaped c) := by
  -- The characters with a letter are a finite table. The others are written as themselves if they
  -- can be, and else by a number, whose width is chosen to fit them.
  by_cases named : c.toNat ∈ lettered
  · have same := escapes_lettered _ named
    rwa [Char.ofNat_toNat] at same
  · simp only [lettered, List.mem_cons, List.not_mem_nil, or_false, not_or] at named
    simp only [escaped, named, if_false]
    split
    · rename_i plain
      simp only [Bool.and_eq_true, Bool.not_eq_true', bne_iff_ne] at plain
      obtain ⟨⟨⟨printable, noBreak⟩, noQuote⟩, noBackslash⟩ := plain
      refine .self ?_ noBreak noQuote noBackslash printable
      rintro rfl
      exact absurd printable (by decide)
    rename_i notPlain
    split
    · exact .number rfl rfl rfl rfl (by decide) (by decide) (by omega)
    split
    · exact .number rfl rfl rfl rfl (by decide) (by decide) (by omega)
    · exact absurd (printable_of_wide (by omega)) notPlain

theorem length_escaped (text : List Char) : (text.flatMap escaped).length ≤ 6 * text.length := by
  induction text with
  | nil => simp
  | cons c text ih =>
    have one : (escaped c).length ≤ 6 := by
      have escapes := escapes_escaped c
      generalize escaped c = written at escapes
      cases escapes with
      | self | letter => simp
      | number _ _ _ _ _ short =>
        rw [List.length_cons, List.length_cons, length_upperHex]
        omega
    rw [List.flatMap_cons, List.length_append, List.length_cons]
    omega

/-! ### One character

The reader takes a character in one step, whether it stands for itself, behind a backslash as a
letter, or by the digits of its number. -/

section Steps

variable {fuel : Nat} {c letter : Char}

theorem doubleWord?_self (noSpace : isSpace c = false) (noBreak : isBreak c = false)
    (noQuote : c ≠ '"') (noBackslash : c ≠ '\\') (rest : List Char) :
    doubleWord? (fuel + 1) (c :: rest) = (doubleWord? fuel rest).map fun (word, length, ending) =>
      (c :: word, length + 1, ending) := by
  rw [doubleWord?]
  · simp [noSpace, noBreak, noBackslash]
  · simp [noQuote]
  · simp [noBackslash]

theorem doubleWord?_letter (noBreak : isBreak letter = false) (meant : escapeOf? letter = some c)
    (rest : List Char) :
    doubleWord? (fuel + 1) ('\\' :: letter :: rest) =
      (doubleWord? fuel rest).map fun (word, length, ending) => (c :: word, length + 2, ending) := by
  rw [doubleWord?, noBreak, meant]
  exact if_neg Bool.false_ne_true

theorem doubleWord?_number {digits : List Char} (noBreak : isBreak letter = false)
    (noLetter : escapeOf? letter = none) (hasWidth : escapeWidth? letter = some digits.length)
    (value : Text.natOfDigits? 16 digits = some c.toNat) (rest : List Char) :
    doubleWord? (fuel + 1) ('\\' :: letter :: (digits ++ rest)) =
      (doubleWord? fuel rest).map fun (word, length, ending) =>
        (c :: word, length + digits.length + 2, ending) := by
  have enough : ¬(digits ++ rest).length < digits.length := by
    rw [List.length_append]
    omega
  have taken : (digits ++ rest).take digits.length = digits := List.take_left' rfl
  have left : (digits ++ rest).drop digits.length = rest := List.drop_left' rfl
  have valid : c.toNat.isValidChar := c.valid
  rw [doubleWord?, noBreak, noLetter, hasWidth]
  dsimp only
  rw [if_neg Bool.false_ne_true, if_neg enough, taken, value]
  dsimp only
  rw [if_pos valid, left, Char.ofNat_toNat]

end Steps

/-! ### Texts

A text is read back from whatever its characters are written as, if the reader takes each of them in
one step and the blanks stand as they are. -/

/-- How the characters of a text are written so that each of them is read in one step. -/
structure Legible (write : Char → List Char) (text : List Char) : Prop where
  blank : write ' ' = [' ']
  starts : ∀ c ∈ text, c ≠ ' ' →
    ∃ first others, write c = first :: others ∧ isSpace first = false ∧ isBreak first = false
  step : ∀ c ∈ text, c ≠ ' ' → ∀ (fuel : Nat) (rest : List Char),
    doubleWord? (fuel + 1) (write c ++ rest) =
      (doubleWord? fuel rest).map fun (word, length, ending) =>
        (c :: word, length + (write c).length, ending)

private theorem legible_escaped (text : List Char) : Legible escaped text where
  blank := rfl
  starts c _ noBlank := by
    have escapes := escapes_escaped c
    generalize escaped c = written at escapes
    cases escapes with
    | self noTab noBreak => exact ⟨c, [], rfl, by simp [isSpace, noBlank, noTab], noBreak⟩
    | letter => exact ⟨_, _, rfl, rfl, rfl⟩
    | number => exact ⟨_, _, rfl, rfl, rfl⟩
  step c _ noBlank fuel rest := by
    have escapes := escapes_escaped c
    generalize escaped c = written at escapes ⊢
    -- Each way of writing a character has its own step in the reader.
    cases escapes with
    | self noTab noBreak noQuote noBackslash =>
      exact doubleWord?_self (by simp [isSpace, noBlank, noTab]) noBreak noQuote noBackslash rest
    | letter noBreak meant => exact doubleWord?_letter noBreak meant rest
    | @number letter width noBreak _ noLetter hasWidth positive _ fits =>
      have long := length_upperHex width c.toNat
      have value := natOfDigits?_upperHex positive fits
      exact doubleWord?_number noBreak noLetter (long.symm ▸ hasWidth) value rest

section Legible

variable {write : Char → List Char}

private theorem Legible.of_append {front rest : List Char}
    (legible : Legible write (front ++ rest)) :
    Legible write front ∧ Legible write rest := by
  constructor
  · exact ⟨legible.blank, fun c member => legible.starts c (List.mem_append_left rest member),
      fun c member => legible.step c (List.mem_append_left rest member)⟩
  · exact ⟨legible.blank, fun c member => legible.starts c (List.mem_append_right front member),
      fun c member => legible.step c (List.mem_append_right front member)⟩

private theorem doubleWord?_append {fuel : Nat} {word : List Char} (legible : Legible write word)
    (noBlank : ' ' ∉ word) (rest : List Char) :
    doubleWord? (fuel + word.length) (word.flatMap write ++ rest) =
      (doubleWord? fuel rest).map fun (last, length, ending) =>
        (word ++ last, length + (word.flatMap write).length, ending) := by
  induction word with
  | nil => simp
  | cons c word ih =>
    rw [List.mem_cons, not_or] at noBlank
    have step := legible.step c List.mem_cons_self (Ne.symm noBlank.1) (fuel + word.length)
      (word.flatMap write ++ rest)
    have others := (@Legible.of_append write [c] word legible).2
    rw [List.flatMap_cons, List.append_assoc, List.length_cons, ← Nat.add_assoc, step,
      ih others noBlank.2, Option.map_map]
    congr 1
    funext ⟨last, length, ending⟩
    simp [Nat.add_comm, Nat.add_left_comm]

private theorem flatMap_blanks (blank : write ' ' = [' ']) (count : Nat) :
    (blanks count).flatMap write = blanks count := by
  induction count with
  | zero => rfl
  | succ count ih =>
    have one : blanks (count + 1) = ' ' :: blanks count := rfl
    rw [one, List.flatMap_cons, blank, ih]
    rfl

private theorem startsWord_flatMap {text after : List Char} (legible : Legible write text)
    (noBlank : text.head? ≠ some ' ') : StartsWord (text.flatMap write ++ '"' :: after) := by
  intro d member
  cases text with
  | nil =>
    obtain rfl : '"' = d := by simpa using member
    decide
  | cons c text =>
    have notBlank : c ≠ ' ' := by simpa using noBlank
    obtain ⟨first, others, written, noSpace, noBreak⟩ :=
      legible.starts c List.mem_cons_self notBlank
    rw [List.flatMap_cons, written] at member
    obtain rfl : first = d := by simpa using member
    exact ⟨noSpace, noBreak⟩

private theorem length_le_length_flatMap {text : List Char} (legible : Legible write text) :
    text.length ≤ (text.flatMap write).length := by
  induction text with
  | nil => simp
  | cons c text ih =>
    have positive : 0 < (write c).length := by
      by_cases isBlank : c = ' '
      · rw [isBlank, legible.blank]
        exact Nat.one_pos
      · obtain ⟨first, others, written, -⟩ := legible.starts c List.mem_cons_self isBlank
        rw [written]
        exact Nat.succ_pos _
    have shorter := ih (@Legible.of_append write [c] text legible).2
    rw [List.flatMap_cons, List.length_cons, List.length_append]
    omega

/-- A reader that has as much fuel as there are characters takes a word. -/
theorem doubleWord?_rest {word rest : List Char} {p : Position} (legible : Legible write word)
    (noBlank : ' ' ∉ word) (found : p.rest = word.flatMap write ++ rest) :
    ∃ spare, doubleWord? (p.rest.length + 1) p.rest =
      (doubleWord? (spare + 1) rest).map fun (last, length, ending) =>
        (word ++ last, length + (word.flatMap write).length, ending) := by
  have atLeast : word.length ≤ p.rest.length := by
    have written := length_le_length_flatMap legible
    rw [found, List.length_append]
    omega
  have split : p.rest.length + 1 = p.rest.length - word.length + 1 + word.length := by omega
  refine ⟨p.rest.length - word.length, ?_⟩
  rw [← doubleWord?_append legible noBlank rest, ← split, ← found]

/-- The reader goes over a word and the blanks behind it. -/
private theorem doubleFrom_blanks {fuel count : Nat} {kept word rest : List Char} {p : Position}
    (legible : Legible write word)
    (found : p.rest = word.flatMap write ++ (blanks (count + 1) ++ rest)) (noBlank : ' ' ∉ word)
    (inside : p.column ≠ 0) (starts : StartsWord rest) :
    doubleFrom (fuel + 1) kept p =
      doubleFrom fuel (kept ++ word ++ blanks (count + 1))
        (p.advance ((word.flatMap write).length + (count + 1))) := by
  obtain ⟨spare, taken⟩ := doubleWord?_rest legible noBlank found
  have behind : (p.advance (word.flatMap write).length).rest = blanks (count + 1) ++ rest := by
    rw [Position.rest_advance, found, List.drop_left' rfl]
  have read := @Gap.read_blanks 0 (count + 1) _ _ behind starts
  rw [Position.advance_advance] at read
  have gap : doubleWord? (spare + 1) (blanks (count + 1) ++ rest) = some ([], 0, .space) := by
    simp [doubleWord?, blanks, List.replicate_succ, isSpace]
  rw [doubleFrom, within_of_column inside (by simp [found, blanks]), taken, gap]
  simp [-List.length_flatMap, read, Gap.folded]

/-- A text between double quotation marks is read back. -/
private theorem doubleFrom_flatMap {fuel : Nat} {kept text after : List Char} {p : Position}
    (legible : Legible write text) (found : p.rest = text.flatMap write ++ '"' :: after)
    (inside : p.column ≠ 0) (enough : text.length < fuel) :
    doubleFrom fuel kept p =
      some (kept ++ text, p.advance ((text.flatMap write).length + 1)) := by
  induction fuel generalizing kept text p with
  | zero => exact absurd enough (Nat.not_lt_zero _)
  | succ fuel ih =>
    -- Only blanks make gaps here: line ends are escaped, so a word reaches over them.
    obtain ⟨word, behind, rfl, noBlank, stop⟩ := exists_front (· != ' ') text
    have noBlank : ' ' ∉ word := fun member => by simpa using noBlank ' ' member
    obtain ⟨first, others⟩ := legible.of_append
    rw [List.flatMap_append] at found ⊢
    cases behind with
    | nil =>
      rw [List.flatMap_nil, List.append_nil] at found ⊢
      obtain ⟨spare, taken⟩ := doubleWord?_rest first noBlank found
      rw [doubleFrom, within_of_column inside (by simp [found]), taken]
      simp [-List.length_flatMap, doubleWord?, Nat.add_comm 1]
    | cons c behind =>
      obtain rfl : c = ' ' := by simpa using stop c rfl
      obtain ⟨count, rest, rfl, starts⟩ := exists_blanks behind
      have blank : ' ' :: (blanks count ++ rest) = blanks (count + 1) ++ rest := rfl
      rw [blank] at others
      obtain ⟨-, others⟩ := others.of_append
      rw [blank, List.flatMap_append, flatMap_blanks legible.blank] at found ⊢
      rw [List.append_assoc, List.append_assoc] at found
      have shorter : rest.length < fuel := by
        simp [length_blanks] at enough
        omega
      have behind : (p.advance ((word.flatMap write).length + (count + 1))).rest =
          rest.flatMap write ++ '"' :: after := by
        rw [← Position.advance_advance, Position.rest_advance, Position.rest_advance, found,
          List.drop_left' rfl, List.drop_left' (length_blanks _)]
      rw [doubleFrom_blanks first found noBlank inside (startsWord_flatMap others starts),
        ih others behind (by simp) shorter, Position.advance_advance]
      simp [length_blanks, Nat.add_assoc]

end Legible

/-! ## Scalars -/

private theorem length_le_length_quotedLines {indent : Nat} (lineStart : Bool) (text : List Char) :
    text.length ≤ (quotedLines indent lineStart text).length := by
  induction text generalizing lineStart with
  | nil => simp
  | cons c text ih =>
    rw [quotedLines]
    split
    · exact Nat.succ_le_succ (ih true)
    · have rest := ih false
      split <;> split <;> simp <;> omega

theorem quoted?_single {indent : Nat} {text after : List Char} {p : Position}
    (quotable : Quotable text) (found : p.rest = Printer.singleQuoted indent text ++ after)
    (single : after.head? ≠ some '\'') (indented : indent ≠ 0) :
    ∃ q, quoted? p = some (.singleQuoted, text, q) ∧ q.rest = after ∧ p.line ≤ q.line ∧
      q.fresh = false ∧ ((∀ c ∈ text, isBreak c = false) →
        q = { p.advance (Printer.singleQuoted indent text).length with fresh := false }) := by
  have here : p.rest = '\'' :: (quotedLines indent false text ++ '\'' :: after) := by
    rw [found, Printer.singleQuoted]
    simp
  have enough : text.length < p.rest.length + 1 := by
    have written := @length_le_length_quotedLines indent false text
    rw [here, List.length_cons, List.length_append]
    omega
  obtain ⟨q, read, left⟩ := @singleFrom_quotedLines indent (p.rest.length + 1) [] text after
    { p.advance 1 with fresh := false } quotable (by simp [here]) single (by simp) indented enough
  refine ⟨q, ?_, left.rest, left.line, left.fresh, fun oneLine => ?_⟩
  · have mark : p.at? '\'' = true := by simp [Position.at?, here]
    rw [quoted?, if_pos mark, read]
    rfl
  · rw [left.oneLine oneLine, Printer.singleQuoted]
    simp [Position.advance, Nat.add_comm, Nat.add_left_comm, Nat.add_assoc]

/-- A text in double quotation marks is read back from whatever its characters are written as. -/
theorem quoted?_of_legible {write : Char → List Char} {text after : List Char} {p : Position}
    (legible : Legible write text)
    (found : p.rest = '"' :: (text.flatMap write ++ '"' :: after)) :
    quoted? p = some (.doubleQuoted, text,
      { p.advance ((text.flatMap write).length + 2) with fresh := false }) := by
  have enough : text.length < p.rest.length + 1 := by
    have written := length_le_length_flatMap legible
    rw [found, List.length_cons, List.length_append]
    omega
  have read := @doubleFrom_flatMap write (p.rest.length + 1) [] text after
    { p.advance 1 with fresh := false } legible (by simp [found]) (by simp) enough
  have noMark : ¬p.at? '\'' = true := by simp [Position.at?, found]
  rw [quoted?, if_neg noMark, read]
  simp [-List.length_flatMap, Position.advance, Nat.add_comm, Nat.add_left_comm]

theorem quoted?_double {text after : List Char} {p : Position}
    (found : p.rest = Printer.doubleQuoted text ++ after) :
    quoted? p = some (.doubleQuoted, text,
      { p.advance (Printer.doubleQuoted text).length with fresh := false }) := by
  have here : p.rest = '"' :: (text.flatMap escaped ++ '"' :: after) := by
    rw [found, Printer.doubleQuoted]
    simp
  have long : (Printer.doubleQuoted text).length = (text.flatMap escaped).length + 2 := by
    simp [-List.length_flatMap, Printer.doubleQuoted]
  rw [quoted?_of_legible (legible_escaped text) here, long]

end Scalar
end Blueprint.Yaml
