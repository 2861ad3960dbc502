import Blueprint.Proofs.Yaml.Positions
import Mathlib.Data.List.Basic

/-!
# Plain scalars read back

A text that may be written plainly is words with blanks between them. Its reader takes the words one
by one and keeps the blanks, up to the colon of a key or up to the end of the line, where the next
line belongs to something that stands further left.
-/

namespace Blueprint.Yaml

open Printer (blanks holdsMark)

/-- A text that is read as a plain scalar within one line: it neither starts nor ends with a blank,
and no mark in it ends the scalar. -/
structure PlainLine (text : List Char) : Prop where
  nonempty : text ≠ []
  starts : text.head? ≠ some ' '
  ends : text.getLast? ≠ some ' '
  chars : ∀ c ∈ text, c ≠ '\t' ∧ isBreak c = false
  noMark : holdsMark true text = false

namespace Scalar

/-! ## Words -/

/-- What stands behind the last word of a plain scalar. -/
def EndsPlain (rest : List Char) : Prop :=
  endsWord rest = true ∨ ∃ value, rest = ':' :: value ∧ endsWord value = true

private theorem plainWord?_append {word rest : List Char} {afterBlank : Bool}
    (chars : ∀ c ∈ word, isSpace c = false ∧ isBreak c = false)
    (noMark : holdsMark afterBlank word = false) (ends : EndsPlain rest) :
    plainWord? false (word ++ rest) = some word := by
  -- Along the word. Whether a blank stands before a character only matters for comment marks,
  -- which the reader of a word does not look at, so it is general.
  induction word generalizing afterBlank with
  | nil =>
    rcases ends with ends | ⟨value, rfl, ends⟩
    · cases rest with
      | nil => rfl
      | cons c rest =>
        have blank : (isSpace c || isBreak c) = true := ends
        simp [plainWord?, blank]
    · simp [plainWord?, ends]
  | cons c word ih =>
    obtain ⟨⟨noSpace, noBreak⟩, others⟩ := List.forall_mem_cons.mp chars
    simp only [holdsMark, Bool.or_eq_false_iff, endsWord_eq] at noMark
    -- A colon inside the word is followed by a character of the word.
    have noColon : (c == ':' && endsWord (word ++ rest)) = false := by
      cases word with
      | nil =>
        have noColon : c ≠ ':' := by simpa [endsWord] using noMark.1.1
        simp [noColon]
      | cons d word => exact noMark.1.1
    simp [plainWord?, noSpace, noBreak, noColon, ih others noMark.2]

private theorem holdsMark_blanks {afterBlank : Bool} {count : Nat} {text : List Char}
    (noMark : holdsMark afterBlank (blanks (count + 1) ++ text) = false) :
    holdsMark true text = false := by
  induction count generalizing afterBlank with
  | zero =>
    have here : holdsMark afterBlank (' ' :: text) = false := noMark
    simpa [holdsMark, Printer.endsWord] using here
  | succ count ih =>
    have here : holdsMark afterBlank (' ' :: (blanks (count + 1) ++ text)) = false := noMark
    rw [holdsMark, Bool.or_eq_false_iff] at here
    exact ih here.2

/-- A text without marks consists of texts without marks. -/
private theorem holdsMark_word {afterBlank : Bool} {word : List Char} {count : Nat}
    {text : List Char}
    (noMark : holdsMark afterBlank (word ++ (blanks (count + 1) ++ text)) = false) :
    holdsMark afterBlank word = false ∧ holdsMark true text = false := by
  induction word generalizing afterBlank with
  | nil => exact ⟨rfl, holdsMark_blanks noMark⟩
  | cons c word ih =>
    simp only [List.cons_append, holdsMark, Bool.or_eq_false_iff] at noMark ⊢
    obtain ⟨first, others⟩ := noMark
    refine ⟨⟨⟨?_, first.2⟩, (ih others).1⟩, (ih others).2⟩
    cases word with
    | nil => exact first.1
    | cons d word => exact first.1

end Scalar

/-- A plain line is a word, or a word, blanks and another plain line. -/
private theorem PlainLine.split {text : List Char} (line : PlainLine text) :
    ∃ word, word ≠ [] ∧ (∀ c ∈ word, isSpace c = false ∧ isBreak c = false) ∧
      (text = word ∨
        ∃ count rest, text = word ++ (blanks (count + 1) ++ rest) ∧ PlainLine rest) := by
  -- The word goes up to the first blank; tabs and line ends are excluded anyway.
  obtain ⟨word, behind, rfl, noBlank, stop⟩ := exists_front (· != ' ') text
  have chars : ∀ c ∈ word, isSpace c = false ∧ isBreak c = false := fun c member => by
    obtain ⟨noTab, noBreak⟩ := line.chars c (by simp [member])
    have noBlank : c ≠ ' ' := by simpa using noBlank c member
    simp [isSpace, noBlank, noTab, noBreak]
  have wordNonempty : word ≠ [] := by
    rintro rfl
    cases behind with
    | nil => exact line.nonempty rfl
    | cons c behind => exact line.starts (by simpa using stop c rfl)
  refine ⟨word, wordNonempty, chars, ?_⟩
  cases behind with
  | nil => exact .inl (List.append_nil word)
  | cons c behind =>
    obtain rfl : c = ' ' := by simpa using stop c rfl
    obtain ⟨count, rest, rfl, starts⟩ := exists_blanks behind
    have ends : (word ++ (blanks (count + 1) ++ rest)).getLast? ≠ some ' ' := line.ends
    -- The line does not end with a blank, so there is something behind the blanks.
    have nonempty : rest ≠ [] := by
      rintro rfl
      exact ends (by simp [blanks, List.getLast?_append, List.getLast?_replicate])
    have behind : blanks (count + 1) ++ rest ≠ [] := by simp [nonempty]
    rw [List.getLast?_append_of_ne_nil _ behind, List.getLast?_append_of_ne_nil _ nonempty] at ends
    have chars : ∀ d ∈ rest, d ≠ '\t' ∧ isBreak d = false := fun d member =>
      line.chars d (by simp [member])
    exact .inr ⟨count, rest, rfl, nonempty, starts, ends, chars, (Scalar.holdsMark_word line.noMark).2⟩

/-! ## Lines -/

namespace Scalar

/-- What ends a plain scalar whose further lines would start at a margin, and where its reader goes
then: a colon that ends a key stays, and the end of the line is gone over. -/
inductive PlainEnd (margin : Nat) : List Char → (Position → Position) → Prop
  | colon {value : List Char} (ends : endsWord value = true) : PlainEnd margin (':' :: value) id
  | line {column : Nat} {rest : List Char} (left : column < margin) (starts : StartsWord rest) :
    PlainEnd margin ('\n' :: (blanks column ++ rest))
      fun p => ⟨rest, p.line + 1, column, p.index + 1 + column, true⟩

private theorem PlainEnd.endsPlain {margin : Nat} {after : List Char} {finish : Position → Position}
    (ended : PlainEnd margin after finish) : EndsPlain after := by
  cases ended with
  | colon ends => exact .inr ⟨_, rfl, ends⟩
  | line left starts => exact .inl rfl

/-- The reader of a plain scalar takes a word. -/
private theorem plainFrom_word {margin fuel : Nat} {kept word rest : List Char} {gap : Gap}
    {p : Position}
    (found : p.rest = word ++ rest) (nonempty : word ≠ [])
    (chars : ∀ c ∈ word, isSpace c = false ∧ isBreak c = false) (noMark : holdsMark true word = false)
    (ends : EndsPlain rest) (inside : p.atDocumentBoundary = false) :
    plainFrom false margin (fuel + 1) kept gap p =
      if rest.isEmpty || !endsWord rest then
        some (kept ++ gap.folded ++ word, p.advance word.length)
      else (Gap.read margin {} (p.advance word.length)).bind fun (between, q) =>
        if q.column < margin then
          some (kept ++ gap.folded ++ word, { q with fresh := q.fresh || between.broken })
        else plainFrom false margin fuel (kept ++ gap.folded ++ word) between q := by
  obtain ⟨c, word, rfl⟩ := List.exists_cons_of_ne_nil nonempty
  have noComment : p.at? '#' = false := by
    have noSign : c ≠ '#' := by
      rintro rfl
      simp [holdsMark] at noMark
    simpa [Position.at?, found] using noSign
  have taken : plainWord? false p.rest = some (c :: word) := by
    rw [found]
    exact plainWord?_append chars noMark ends
  have behind : (p.advance (c :: word).length).rest = rest := by
    rw [Position.rest_advance, found, List.drop_left' rfl]
  simp only [plainFrom, inside, noComment, taken, behind, Bool.or_self, Bool.false_eq_true, if_false,
    Bool.not_false, Bool.true_and, decide_eq_true_eq]
  cases Gap.read margin {} (p.advance (c :: word).length) <;> rfl

theorem startsWord_of_line {text after : List Char} (line : PlainLine text) :
    StartsWord (text ++ after) := by
  intro c member
  cases text with
  | nil => exact absurd rfl line.nonempty
  | cons d text =>
    obtain rfl : d = c := by simpa using member
    have noBlank : d ≠ ' ' := by simpa using line.starts
    obtain ⟨noTab, noBreak⟩ := line.chars d List.mem_cons_self
    simp [isSpace, noBlank, noTab, noBreak]

/-- A plain line is read up to what ends it. -/
private theorem plainFrom_line {margin fuel : Nat} {kept text after : List Char} {gap : Gap}
    {p : Position}
    {finish : Position → Position} (line : PlainLine text) (ended : PlainEnd margin after finish)
    (found : p.rest = text ++ after) (inside : p.atDocumentBoundary = false)
    (right : margin ≤ p.column + 1) (enough : text.length ≤ fuel) :
    plainFrom false margin fuel kept gap p =
      some (kept ++ gap.folded ++ text, finish (p.advance text.length)) := by
  -- A unit of fuel for each word, of which there are at most as many as characters. What was read
  -- so far and the gap before the word vary.
  induction fuel generalizing kept text gap p with
  | zero => exact absurd (List.eq_nil_of_length_eq_zero (Nat.le_zero.mp enough)) line.nonempty
  | succ fuel ih =>
    obtain ⟨word, nonempty, chars, rfl | ⟨count, rest, rfl, others⟩⟩ := line.split
    · rw [plainFrom_word found nonempty chars line.noMark ended.endsPlain inside]
      have behind : (p.advance text.length).rest = after := by
        rw [Position.rest_advance, found, List.drop_left' rfl]
      cases ended with
      | colon ends => rfl
      | @line column rest left starts =>
        have read := @Gap.read_breaks margin column (p.advance text.length) '\n' [] rest
          (by simp [IsPlainBreak]) behind starts
        simp [read, left, endsWord, isBreak]
    · -- The next word stands further right, so it belongs to the scalar.
      obtain ⟨noMark, -⟩ := holdsMark_word line.noMark
      have found : p.rest = word ++ (blanks (count + 1) ++ (rest ++ after)) := by
        simpa only [List.append_assoc] using found
      rw [plainFrom_word found nonempty chars noMark (.inl rfl) inside]
      have behind : (p.advance word.length).rest = blanks (count + 1) ++ (rest ++ after) := by
        rw [Position.rest_advance, found, List.drop_left' rfl]
      have read := @Gap.read_blanks margin _ _ _ behind (startsWord_of_line others)
      have long : 0 < word.length := List.length_pos_iff.mpr nonempty
      -- The word is not empty, so the next one is at least two columns on.
      have farRight : ¬ p.column + word.length + (count + 1) < margin := by omega
      have shorter : rest.length ≤ fuel := by
        simp only [List.length_append] at enough
        omega
      have next := @ih (kept ++ gap.folded ++ word) rest { blanks := blanks (count + 1) }
        (p.advance (word.length + (count + 1))) others
        (by rw [← Position.advance_advance, Position.rest_advance, behind,
          List.drop_left' (length_blanks _)])
        (Position.atDocumentBoundary_of_column (by simp)) (by simp; omega) shorter
      have more : ¬((blanks (count + 1) ++ (rest ++ after)).isEmpty ||
          !endsWord (blanks (count + 1) ++ (rest ++ after))) = true := by
        simp [blanks, List.replicate_succ, endsWord, isSpace]
      rw [Position.advance_advance] at read
      rw [if_neg more, read, Option.bind_some]
      refine (if_neg (by simpa [Nat.add_assoc] using farRight)).trans (next.trans ?_)
      simp [Gap.folded, Position.advance_advance, Nat.add_assoc, length_blanks]

theorem plain?_line {margin : Nat} {text after : List Char} {p : Position}
    {finish : Position → Position} (line : PlainLine text) (ended : PlainEnd margin after finish)
    (found : p.rest = text ++ after) (inside : p.atDocumentBoundary = false)
    (right : margin ≤ p.column + 1) :
    plain? false margin p =
      some (text, finish ({ p with fresh := false }.advance text.length)) := by
  have enough : text.length ≤ p.rest.length + 1 := by
    rw [found, List.length_append]
    omega
  exact @plainFrom_line margin _ [] text after {} { p with fresh := false } finish line ended found
    inside right enough

/-! ## What starts a plain scalar -/

/-- The characters with which no plain scalar starts. -/
def indicators : List Char :=
  ['#', ',', '[', ']', '\x7b', '\x7d', '&', '*', '!', '|', '>', '\'', '"', '%', '@', '`']

section Ordinary

variable {text after : List Char} {p : Position}
  (nonempty : text ≠ []) (ordinary : Printer.startsSpecial text = false)
  (found : p.rest = text ++ after)
include nonempty ordinary found

theorem at?_of_ordinary {c : Char} (indicator : c ∈ indicators) : p.at? c = false := by
  obtain ⟨first, rest, rfl⟩ := List.exists_cons_of_ne_nil nonempty
  simp only [Printer.startsSpecial, Bool.or_eq_false_iff, decide_eq_false_iff_not] at ordinary
  have different : first ≠ c := fun same => ordinary.1.2 (same ▸ indicator)
  simpa [Position.at?, found] using different

private theorem endsWord_of_ordinary {first : Char} {rest : List Char}
    (split : text = first :: rest)
    (mark : first ∈ ['?', ':', '-']) : endsWord (rest ++ after) = false := by
  subst split
  simp only [Printer.startsSpecial, Bool.or_eq_false_iff, Bool.and_eq_false_iff, endsWord_eq,
    decide_eq_false_iff_not] at ordinary
  have ends : endsWord rest = false := ordinary.2.resolve_left (· mark)
  cases rest with
  | nil => cases ends
  | cons c rest => exact ends

theorem atMark_of_ordinary {c : Char} (mark : c ∈ ['?', ':', '-']) : p.atMark c = false := by
  obtain ⟨first, rest, rfl⟩ := List.exists_cons_of_ne_nil nonempty
  rw [Position.atMark, found]
  -- A text may start with a mark, but only if the mark is not a word of its own.
  by_cases same : first = c
  · subst same
    simpa using endsWord_of_ordinary nonempty ordinary found rfl mark
  · simp [same]

theorem startsPlain_of_ordinary (line : PlainLine text) : startsPlain false p = true := by
  have starts := @startsWord_of_line text after line
  obtain ⟨first, rest, rfl⟩ := List.exists_cons_of_ne_nil nonempty
  obtain ⟨noSpace, noBreak⟩ := starts first rfl
  have noIndicator : first ∉ indicators := by
    simp only [Printer.startsSpecial, Bool.or_eq_false_iff, decide_eq_false_iff_not] at ordinary
    exact ordinary.1.2
  simp only [indicators, List.mem_cons, List.not_mem_nil, or_false, not_or] at noIndicator
  rw [startsPlain, found]
  by_cases mark : first ∈ ['?', ':', '-']
  · have ends := endsWord_of_ordinary nonempty ordinary found rfl mark
    simp only [List.mem_cons, List.not_mem_nil, or_false] at mark
    rcases mark with rfl | rfl | rfl <;> simp [ends]
  · simp only [List.mem_cons, List.not_mem_nil, or_false, not_or] at mark
    simp [mark, noSpace, noBreak, noIndicator, isFlowIndicator]

/-- An ordinary text is no mark that starts or ends a document. -/
theorem atDocumentBoundary_of_ordinary {margin : Nat} {finish : Position → Position}
    (ended : PlainEnd margin after finish) : p.atDocumentBoundary = false := by
  -- A mark needs three equal characters, and what follows the text starts with none of them: so
  -- only the text itself could be one, which the printer excludes.
  have behind : ∀ c ∈ ['-', '.'], after.head? ≠ some c := by
    cases ended <;> simp
  have noMark (c : Char) (mark : c ∈ ['-', '.']) (absent : [c, c, c].isPrefixOf text = false) :
      [c, c, c].isPrefixOf p.rest = false := by
    rw [found]
    have stop := behind c mark
    match text, after with
    | [], _ => contradiction
    | [a], [] | [a, b], [] => simp [List.isPrefixOf]
    | [a], d :: rest | [a, b], d :: rest =>
      have different : c ≠ d := fun same => stop (by simp [same])
      simp [List.isPrefixOf, different]
    | a :: b :: d :: text, _ => simpa [List.isPrefixOf] using absent
  have absent : ['-', '-', '-'].isPrefixOf text = false ∧ ['.', '.', '.'].isPrefixOf text = false := by
    cases text with
    | nil => contradiction
    | cons c text =>
      simp only [Printer.startsSpecial, Bool.or_eq_false_iff] at ordinary
      exact ordinary.1.1
  simp [Position.atDocumentBoundary, Position.atDocumentMark, noMark '-' (by simp) absent.1,
    noMark '.' (by simp) absent.2]

end Ordinary

end Scalar

/-- A text that may be written plainly is a plain line. -/
theorem plainLine_of_mayBePlain {text : List Char} (nonempty : text ≠ [])
    (plain : Printer.mayBePlain text = true) :
    PlainLine text ∧ Printer.startsSpecial text = false := by
  simp only [Printer.mayBePlain, Bool.and_eq_true, Bool.not_eq_true', Bool.or_eq_false_iff] at plain
  obtain ⟨⟨⟨⟨⟨starts, ends⟩, oneLine⟩, noEscapes⟩, ordinary⟩, noMark⟩ := plain
  refine ⟨⟨nonempty, by simpa using starts, by simpa using ends, fun c member => ?_, ?_⟩, ordinary⟩
  · simp only [Printer.needsEscapes, Bool.or_eq_false_iff, List.any_eq_false] at noEscapes
    simp only [Printer.isMultiline, List.any_eq_false] at oneLine
    refine ⟨?_, by simpa [isLineEnd_eq_isBreak] using oneLine c member⟩
    rintro rfl
    exact absurd (noEscapes.1 _ member) (by decide)
  -- No mark stands inside, and the first character makes none with what is before the text either.
  · obtain ⟨first, rest, rfl⟩ := List.exists_cons_of_ne_nil nonempty
    simp only [Printer.startsSpecial, Bool.or_eq_false_iff] at ordinary
    have noSign : first ≠ '#' := by
      rintro rfl
      simp at ordinary
    have noColon : (first == ':' && Printer.endsWord rest) = false := by
      by_cases same : first = ':'
      · subst same
        simpa using ordinary.2
      · simp [same]
    simpa [holdsMark, noSign, noColon] using noMark

end Blueprint.Yaml
