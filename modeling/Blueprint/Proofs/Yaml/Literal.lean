import Blueprint.Proofs.Yaml.Positions
import Mathlib.Data.List.Basic

/-!
# Literal scalars read back

A literal scalar is the lines of a text, each behind its indentation. Its reader takes line after
line up to a place further left. What becomes of the line ends at the end is in the header, which is
chosen so that just those of the text are kept.
-/

namespace Blueprint.Yaml

open Printer (blanks literalLines)

namespace Scalar

/-- A text as lines and runs of line ends between them, and the line ends behind its last line. -/
inductive Lines : (body ends : List Char) → Prop
  | last {line ends : List Char} (nonempty : line ≠ []) (chars : ∀ c ∈ line, isBreak c = false)
    (breaks : ∀ c ∈ ends, isBreak c = true) : Lines line ends
  | more {line body ends : List Char} {c : Char} {run : List Char} (nonempty : line ≠ [])
    (chars : ∀ c ∈ line, isBreak c = false) (breaks : ∀ d ∈ c :: run, isBreak d = true)
    (others : Lines body ends) : Lines (line ++ (c :: run ++ body)) ends

private theorem Lines.nonempty {body ends : List Char} (lines : Lines body ends) : body ≠ [] := by
  cases lines <;> simp [*]

private theorem Lines.breaks {body ends : List Char} (lines : Lines body ends) :
    ∀ c ∈ ends, isBreak c = true := by
  induction lines with
  | last _ _ breaks => exact breaks
  | more _ _ _ _ ih => exact ih

/-- A text that does not start with a line end is lines. -/
private theorem exists_lines {text : List Char} (nonempty : text ≠ [])
    (starts : ∀ c ∈ text.head?, isBreak c = false) :
    ∃ body ends, text = body ++ ends ∧ Lines body ends := by
  -- A line, then the run of line ends behind it: the text goes on only if something follows the
  -- run.
  obtain ⟨line, behind, split, chars, stop⟩ := exists_front (fun c => !isBreak c) text
  have chars : ∀ c ∈ line, isBreak c = false := by simpa using chars
  have lineNonempty : line ≠ [] := by
    rintro rfl
    cases behind with
    | nil => exact nonempty split
    | cons c behind => simpa [starts c (by simp [split])] using stop c rfl
  obtain ⟨run, rest, same, breaks, stop'⟩ := exists_front isBreak behind
  subst same
  cases rest with
  | nil => exact ⟨line, run, by simpa using split, .last lineNonempty chars breaks⟩
  | cons d rest =>
    -- The rest is shorter because the line in front of it is not empty.
    have shorter : (d :: rest).length < text.length := by
      have long := List.length_pos_iff.mpr lineNonempty
      rw [split, List.length_append, List.length_append]
      omega
    obtain ⟨body, ends, same, others⟩ := exists_lines (List.cons_ne_nil d rest) stop'
    cases run with
    | nil => simpa [stop' d rfl] using stop d rfl
    | cons c run =>
      exact ⟨line ++ (c :: run ++ body), ends, by simp [split, same],
        .more lineNonempty chars breaks others⟩
termination_by text.length

/-! ## What is written -/

private theorem literalLines_line {indent : Nat} {line : List Char}
    (chars : ∀ c ∈ line, isBreak c = false)
    (rest : List Char) :
    literalLines indent false (line ++ rest) = line ++ literalLines indent false rest := by
  induction line with
  | nil => rfl
  | cons c line ih =>
    obtain ⟨noBreak, others⟩ := List.forall_mem_cons.mp chars
    rw [List.cons_append, literalLines, isLineEnd_eq_isBreak, if_neg (by simp [noBreak]), ih others]
    rfl

private theorem literalLines_breaks {indent : Nat} {lineStart : Bool} {c : Char} {run : List Char}
    (breaks : ∀ d ∈ c :: run, isBreak d = true) (rest : List Char) :
    literalLines indent lineStart (c :: run ++ rest) = c :: run ++ literalLines indent true rest := by
  induction run generalizing c lineStart with
  | nil =>
    rw [List.cons_append, literalLines, isLineEnd_eq_isBreak, if_pos (breaks c (by simp))]
    rfl
  | cons d run ih =>
    obtain ⟨isBreak, others⟩ := List.forall_mem_cons.mp breaks
    rw [List.cons_append, literalLines, isLineEnd_eq_isBreak, if_pos isBreak, ih others]
    rfl

private theorem literalLines_indented {indent : Nat} {text : List Char} (nonempty : text ≠ [])
    (starts : ∀ c ∈ text.head?, isBreak c = false) :
    literalLines indent true text = blanks indent ++ literalLines indent false text := by
  obtain ⟨c, text, rfl⟩ := List.exists_cons_of_ne_nil nonempty
  have noBreak := starts c rfl
  simp [literalLines, isLineEnd_eq_isBreak, noBreak]

private theorem head?_literalLines {indent : Nat} {text : List Char} (nonempty : text ≠ [])
    (starts : ∀ c ∈ text.head?, isBreak c = false) (rest : List Char) :
    (literalLines indent false text ++ rest).head? = text.head? := by
  obtain ⟨c, text, rfl⟩ := List.exists_cons_of_ne_nil nonempty
  have noBreak := starts c rfl
  simp [literalLines, isLineEnd_eq_isBreak, noBreak]

/-! ## Empty lines -/

private theorem length_takeWhile_blanks {count : Nat} {rest : List Char}
    (noBlank : rest.head? ≠ some ' ') :
    ((blanks count ++ rest).takeWhile (· == ' ')).length = count := by
  rw [takeWhile_blanks_append _ rfl, List.length_append, length_blanks]
  cases rest with
  | nil => rfl
  | cons c rest =>
    have notBlank : c ≠ ' ' := by simpa using noBlank
    simp [notBlank]

/-- Empty lines are gone over. -/
private theorem blankLines?_breaks {indent fuel deepest : Nat} {before run rest : List Char}
    {p : Position}
    (breaks : ∀ c ∈ run, IsPlainBreak c) (found : p.rest = run ++ rest) (front : p.column = 0) :
    blankLines? (some indent) (fuel + run.length) before deepest p =
      blankLines? (some indent) fuel (before ++ run) deepest
        ⟨rest, p.line + run.length, 0, p.index + run.length, p.fresh⟩ := by
  -- A line end in column zero is an empty line whatever the indentation: one step each.
  induction run generalizing before p with
  | nil =>
    have here : p.rest = rest := found
    obtain ⟨rest', line, column, index, fresh⟩ := p
    obtain rfl : rest' = rest := here
    obtain rfl : column = 0 := front
    simp
  | cons c run ih =>
    obtain ⟨isPlain, others⟩ := List.forall_mem_cons.mp breaks
    have here : p.rest = c :: (run ++ rest) := found
    have next := @ih (before ++ [c]) ⟨run ++ rest, p.line + 1, 0, p.index + 1, p.fresh⟩ others rfl rfl
    have noBlank : c ≠ ' ' := by
      rintro rfl
      exact absurd isPlain.isSpace (by decide)
    have noTab : c ≠ '\t' := by
      rintro rfl
      exact absurd isPlain.isSpace (by decide)
    rw [List.length_cons, ← Nat.add_assoc, blankLines?]
    simpa [here, front, noBlank, noTab, Position.breakLine?_plain isPlain here, Position.at?,
      Nat.add_assoc, Nat.add_comm, Nat.add_left_comm] using next

/-- At most the indentation is taken from the front of a line. -/
private theorem blankLines?_content {indent fuel deepest : Nat} {before rest : List Char}
    {p : Position}
    (found : p.rest = blanks indent ++ rest) (front : p.column = 0)
    (noBreak : ∀ c ∈ rest.head?, isBreak c = false) :
    blankLines? (some indent) (fuel + 1) before deepest p =
      some (before, max deepest indent, p.advance indent) := by
  have taken : min (p.rest.takeWhile (· == ' ')).length indent = indent := by
    rw [found, takeWhile_blanks_append _ rfl, List.length_append, length_blanks]
    omega
  have behind : (p.advance indent).rest = rest := by
    rw [Position.rest_advance, found, List.drop_left' (length_blanks indent)]
  have stop : (p.advance indent).breakLine? = none :=
    Position.breakLine?_eq_none fun c member => noBreak c (behind ▸ member)
  rw [blankLines?]
  simp [taken, stop, front]

private theorem noTab_of_startsWord {p : Position} (starts : StartsWord p.rest) :
    p.at? '\t' = false := by
  cases found : p.rest with
  | nil => simp [Position.at?, found]
  | cons c rest =>
    have noTab : c ≠ '\t' := by
      rintro rfl
      exact absurd (starts '\t' (by simp [found])).1 (by decide)
    simpa [Position.at?, found] using noTab

/-- What stands further left than a scalar, or at its start, ends its empty lines. -/
private theorem blankLines?_stop {indent? : Option Nat} {count fuel deepest : Nat}
    {before rest : List Char}
    {p : Position} (left : ∀ indent ∈ indent?, count < indent)
    (found : p.rest = blanks count ++ rest) (front : p.column = 0) (starts : StartsWord rest) :
    blankLines? indent? (fuel + 1) before deepest p =
      some (before, max deepest count, p.advance count) := by
  have noBlank : rest.head? ≠ some ' ' := fun isBlank => by
    exact absurd (starts ' ' isBlank).1 (by decide)
  have run : (p.rest.takeWhile (· == ' ')).length = count := by
    rw [found, length_takeWhile_blanks noBlank]
  have behind : (p.advance count).rest = rest := by
    rw [Position.rest_advance, found, List.drop_left' (length_blanks count)]
  have noBreak : (p.advance count).breakLine? = none :=
    Position.breakLine?_eq_none fun c member => (starts c (behind ▸ member)).2
  have noTab : (p.advance count).at? '\t' = false := noTab_of_startsWord (behind ▸ starts)
  cases indent? with
  | none =>
    rw [blankLines?]
    simp [run, noBreak, noTab, front]
  | some indent =>
    have shorter := left indent rfl
    have taken : min count indent = count := by omega
    rw [blankLines?]
    simp [run, taken, noBreak, noTab, front]

section Empty

variable {indent : Nat} {run rest : List Char} {p : Position}
  (breaks : ∀ c ∈ run, IsPlainBreak c) (front : p.column = 0)
include breaks front

/-- Empty lines up to one that is indented. -/
private theorem blankLines?_indented (found : p.rest = run ++ (blanks indent ++ rest))
    (noBreak : ∀ c ∈ rest.head?, isBreak c = false) :
    blankLines? (some indent) (p.rest.length + 1) [] 0 p =
      some (run, indent,
        ⟨rest, p.line + run.length, indent, p.index + run.length + indent, p.fresh⟩) := by
  have enough : p.rest.length + 1 = (blanks indent ++ rest).length + 1 + run.length := by
    rw [found, List.length_append]
    omega
  rw [enough, blankLines?_breaks breaks found front, blankLines?_content rfl rfl noBreak]
  simp [Position.advance, List.drop_left' (length_blanks indent)]

/-- Empty lines up to a place further left. -/
private theorem blankLines?_left {column : Nat} (left : column < indent)
    (found : p.rest = run ++ (blanks column ++ rest)) (starts : StartsWord rest) :
    blankLines? (some indent) (p.rest.length + 1) [] 0 p =
      some (run, column,
        ⟨rest, p.line + run.length, column, p.index + run.length + column, p.fresh⟩) := by
  have enough : p.rest.length + 1 = (blanks column ++ rest).length + 1 + run.length := by
    rw [found, List.length_append]
    omega
  rw [enough, blankLines?_breaks breaks found front,
    blankLines?_stop (by simpa using left) rfl rfl starts]
  simp [Position.advance, List.drop_left' (length_blanks column)]

end Empty

/-! ## Lines -/

/-- The end of the last line and what stands behind it: a line end of its own, unless the text ends
with one. -/
def lastLine (ends after : List Char) : List Char :=
  match ends with
  | [] => '\n' :: after
  | _ :: _ => ends ++ after

/-- What is left of the line ends at the end of a text when its last line was read. -/
def lastEnds : List Char → List Char × List Char
  | [] => (['\n'], [])
  | c :: run => ([c], run)

private theorem exists_lastLine {ends : List Char} (plain : ∀ c ∈ ends, IsPlainBreak c) :
    ∃ c run, lastEnds ends = ([c], run) ∧ (∀ d ∈ c :: run, IsPlainBreak d) ∧
      ∀ after, lastLine ends after = c :: (run ++ after) := by
  cases ends with
  | nil => exact ⟨'\n', [], rfl, by simp [IsPlainBreak], fun _ => rfl⟩
  | cons c run => exact ⟨c, run, rfl, plain, fun _ => rfl⟩

private theorem Lines.head {body ends : List Char} (lines : Lines body ends) :
    ∀ c ∈ body.head?, isBreak c = false := by
  have front {line : List Char} (nonempty : line ≠ []) (chars : ∀ c ∈ line, isBreak c = false)
      (rest : List Char) : ∀ c ∈ (line ++ rest).head?, isBreak c = false := by
    obtain ⟨d, line, rfl⟩ := List.exists_cons_of_ne_nil nonempty
    simpa using chars d
  cases lines with
  | last nonempty chars => simpa using front nonempty chars []
  | more nonempty chars => exact front nonempty chars _

/-- A line is taken with the line end before it, and the line end behind it is kept for the next
one. -/
private theorem blockLines?_line {indent fuel deepest : Nat}
    {kept lead empty line behind skipped : List Char}
    {indented : Bool} {c : Char} {p q : Position} (found : p.rest = line ++ c :: behind)
    (nonempty : line ≠ []) (chars : ∀ d ∈ line, isBreak d = false) (plain : IsPlainBreak c)
    (inside : p.column = indent)
    (blank : blankLines? (some indent) (behind.length + 1) [] 0
      ⟨behind, p.line + 1, 0, p.index + line.length + 1, p.fresh⟩ = some (skipped, deepest, q)) :
    ∃ indented', blockLines? true indent (fuel + 1) kept lead empty indented p =
      blockLines? true indent fuel (kept ++ lead ++ empty ++ line) [c] skipped indented' q := by
  have taken : p.rest.takeWhile (fun d => !isBreak d) = line := by
    rw [found, List.takeWhile_append_of_pos (by simpa using chars)]
    simp [plain.isBreak]
  have here : (p.advance line.length).rest = c :: behind := by
    rw [Position.rest_advance, found, List.drop_left' rfl]
  obtain ⟨first, others, rfl⟩ := List.exists_cons_of_ne_nil nonempty
  have head : p.rest = first :: (others ++ c :: behind) := found
  -- Whether the line starts with a blank only matters for folded scalars.
  refine ⟨isSpace first, ?_⟩
  rw [blockLines?, if_pos ⟨inside, by simp [found]⟩]
  simp only [taken, Position.breakLine?_plain plain here]
  simp only [head, Position.advance, blank]
  rfl

/-- The last line of a text is taken, and what follows it is a place further left. -/
private theorem blockLines?_last {indent fuel column : Nat}
    {kept lead empty line ends rest : List Char} {indented : Bool} {p : Position} (nonempty : line ≠ [])
    (chars : ∀ c ∈ line, isBreak c = false) (plain : ∀ c ∈ ends, IsPlainBreak c)
    (found : p.rest = line ++ lastLine ends (blanks column ++ rest)) (inside : p.column = indent)
    (left : column < indent) (starts : StartsWord rest) :
    ∃ q, blockLines? true indent (fuel + 2) kept lead empty indented p =
        some (kept ++ lead ++ empty ++ line, (lastEnds ends).1, (lastEnds ends).2, q) ∧
      q.rest = rest ∧ q.column = column ∧ p.line < q.line := by
  obtain ⟨c, run, last, plain, split⟩ := exists_lastLine plain
  obtain ⟨isPlain, others⟩ := List.forall_mem_cons.mp plain
  rw [split] at found
  have blank := @blankLines?_left indent run rest ⟨run ++ (blanks column ++ rest), p.line + 1, 0,
    p.index + line.length + 1, p.fresh⟩ others rfl column left rfl starts
  obtain ⟨indented', read⟩ := @blockLines?_line indent (fuel + 1) _ kept lead empty line _ _
    indented c p _ found nonempty chars isPlain inside blank
  -- At a place further left there is no line to go on with.
  have outside : column ≠ indent := Nat.ne_of_lt left
  refine ⟨_, read.trans ((if_neg (fun here => outside here.1)).trans (by rw [last])), rfl, rfl, ?_⟩
  show p.line < p.line + 1 + run.length
  omega

/-- A line is taken with the empty lines behind it, up to the next one, which is indented. -/
private theorem blockLines?_next {indent fuel : Nat}
    {kept lead empty line run content : List Char} {indented : Bool} {c : Char} {p : Position}
    (nonempty : line ≠ []) (chars : ∀ d ∈ line, isBreak d = false)
    (plain : ∀ d ∈ c :: run, IsPlainBreak d)
    (found : p.rest = line ++ c :: (run ++ (blanks indent ++ content)))
    (noBreak : ∀ d ∈ content.head?, isBreak d = false) (inside : p.column = indent) :
    ∃ indented' q, blockLines? true indent (fuel + 1) kept lead empty indented p =
        blockLines? true indent fuel (kept ++ lead ++ empty ++ line) [c] run indented' q ∧
      q.rest = content ∧ q.column = indent ∧ p.line < q.line := by
  obtain ⟨isPlain, others⟩ := List.forall_mem_cons.mp plain
  have blank := @blankLines?_indented indent run content ⟨run ++ (blanks indent ++ content),
    p.line + 1, 0, p.index + line.length + 1, p.fresh⟩ others rfl rfl noBreak
  obtain ⟨indented', read⟩ := @blockLines?_line indent fuel _ kept lead empty line _ _
    indented c p _ found nonempty chars isPlain inside blank
  refine ⟨indented', _, read, rfl, rfl, ?_⟩
  show p.line < p.line + 1 + run.length
  omega

/-- The lines of a text are read up to a place further left. -/
private theorem blockLines?_lines {indent fuel column : Nat}
    {kept lead empty body ends rest : List Char}
    {indented : Bool} {p : Position} (lines : Lines body ends)
    (plain : ∀ c ∈ body ++ ends, isBreak c = true → IsPlainBreak c)
    (found : p.rest = literalLines indent false body ++ lastLine ends (blanks column ++ rest))
    (inside : p.column = indent) (left : column < indent) (starts : StartsWord rest)
    (enough : body.length < fuel) :
    ∃ q, blockLines? true indent fuel kept lead empty indented p =
        some (kept ++ lead ++ empty ++ body, (lastEnds ends).1, (lastEnds ends).2, q) ∧
      q.rest = rest ∧ q.column = column ∧ p.line < q.line := by
  -- By the lines of the text. The last one is followed by a place further left, which stops the
  -- reader; each other one by the indentation of the next, where the hypothesis applies with the
  -- line end as what leads over to it.
  induction lines generalizing fuel kept lead empty indented p with
  | @last line ends nonempty chars breaks =>
    have long := List.length_pos_iff.mpr nonempty
    obtain ⟨fuel, rfl⟩ : ∃ n, fuel = n + 2 := ⟨fuel - 2, by omega⟩
    have written := @literalLines_line indent line chars []
    simp only [List.append_nil, literalLines] at written
    rw [written] at found
    have endsPlain : ∀ c ∈ ends, IsPlainBreak c := fun c member =>
      plain c (List.mem_append_right _ member) (breaks c member)
    exact blockLines?_last nonempty chars endsPlain found inside left starts
  | @more line body ends c run nonempty chars breaks others ih =>
    obtain ⟨fuel, rfl⟩ : ∃ n, fuel = n + 1 := ⟨fuel - 1, by omega⟩
    have runPlain : ∀ d ∈ c :: run, IsPlainBreak d := fun d member =>
      plain d (List.mem_append_left _ (List.mem_append_right _ (List.mem_append_left _ member)))
        (breaks d member)
    have othersPlain : ∀ d ∈ body ++ ends, isBreak d = true → IsPlainBreak d := fun d member =>
      plain d (by simp at member ⊢; tauto)
    rw [literalLines_line chars, literalLines_breaks breaks,
      literalLines_indented others.nonempty others.head] at found
    obtain ⟨indented', q, read, atNext, atIndent, later⟩ :=
      @blockLines?_next indent fuel kept lead empty line run (literalLines indent false body ++
        lastLine ends (blanks column ++ rest)) indented c p nonempty chars runPlain
        (by simpa using found) (head?_literalLines others.nonempty others.head _ ▸ others.head) inside
    have shorter : body.length < fuel := by
      simp at enough
      omega
    obtain ⟨q', done, atRest, atColumn, below⟩ := ih othersPlain atNext atIndent shorter
    refine ⟨q', read.trans (done.trans ?_), atRest, atColumn, Nat.lt_trans later below⟩
    simp

/-! ## Headers -/

/-- Whether the indentation of a text is given, since its first line would not show it. -/
def hinted : List Char → Bool
  | [] => false
  | c :: _ => c == ' ' || isBreak c

def hintMark (isHinted : Bool) : List Char :=
  if isHinted then ['2'] else []

/-- What happens to the line ends at the end of a text. -/
def chompOf (text : List Char) : Chomp :=
  match text.reverse with
  | [] => .strip
  | [c] => if isBreak c then .keep else .strip
  | c :: d :: _ => if isBreak c then (if isBreak d then .keep else .clip) else .strip

def chompMark : Chomp → List Char
  | .strip => ['-']
  | .clip => []
  | .keep => ['+']

theorem literal_eq (indent : Nat) (text : List Char) :
    Printer.literal indent text =
      '|' :: (hintMark (hinted text) ++ (chompMark (chompOf text) ++
        '\n' :: literalLines indent true text)) := by
  have hint : (match text with
      | [] => []
      | c :: _ => if c == ' ' || Printer.isLineEnd c then ['2'] else []) = hintMark (hinted text) := by
    cases text <;> rfl
  -- Whether the text ends with no, one or several line ends decides the chomping.
  have chomp : (match text.reverse with
      | [] => ['-']
      | [c] => if Printer.isLineEnd c then ['+'] else ['-']
      | c :: d :: _ => if Printer.isLineEnd c then (if Printer.isLineEnd d then ['+'] else []) else ['-']) =
        chompMark (chompOf text) := by
    rw [chompOf, isLineEnd_eq_isBreak]
    split
    · rfl
    · split <;> rfl
    · split
      · split <;> rfl
      · rfl
  rw [← chomp, ← hint]
  exact List.append_assoc ('|' :: _) _ _

private theorem blockHeader?_marks {isHinted : Bool} {chomp : Chomp} {p : Position}
    {rest : List Char}
    (found : p.rest = hintMark isHinted ++ (chompMark chomp ++ '\n' :: rest)) :
    blockHeader? p =
      some ({ chomp, indent? := if isHinted then some 2 else none },
        p.advance ((hintMark isHinted).length + (chompMark chomp).length)) := by
  cases isHinted <;> cases chomp <;> simp [blockHeader?, found, hintMark, chompMark] <;> rfl

/-! ## The whole scalar -/

private theorem literalLines_ends {indent : Nat} {lineStart : Bool} {ends : List Char}
    (breaks : ∀ c ∈ ends, isBreak c = true) : literalLines indent lineStart ends = ends := by
  cases ends with
  | nil => rfl
  | cons c run => simpa [literalLines] using @literalLines_breaks indent lineStart c run breaks []

private theorem literalLines_append {indent : Nat} {body ends : List Char}
    (lines : Lines body ends) :
    literalLines indent false (body ++ ends) = literalLines indent false body ++ ends := by
  induction lines with
  | @last line ends nonempty chars breaks =>
    have alone := @literalLines_line indent line chars []
    rw [List.append_nil] at alone
    rw [literalLines_line chars, alone, literalLines_ends breaks]
    simp [literalLines]
  | @more line body ends c run nonempty chars runBreaks others ih =>
    have head : (body ++ ends).head? = body.head? := List.head?_append_of_ne_nil _ others.nonempty
    have indented := @literalLines_indented indent (body ++ ends) (by simp [others.nonempty])
      (head ▸ others.head)
    rw [List.append_assoc, List.append_assoc, literalLines_line chars, literalLines_line chars,
      literalLines_breaks runBreaks, literalLines_breaks runBreaks, indented,
      literalLines_indented others.nonempty others.head, ih]
    simp

private theorem Lines.exists_last {body ends : List Char} (lines : Lines body ends) :
    ∃ front a, body = front ++ [a] ∧ isBreak a = false := by
  induction lines with
  | @last line ends nonempty chars =>
    exact ⟨line.dropLast, line.getLast nonempty, (List.dropLast_concat_getLast nonempty).symm,
      chars _ (List.getLast_mem nonempty)⟩
  | @more line body ends c run _ _ _ _ ih =>
    obtain ⟨front, a, rfl, noBreak⟩ := ih
    exact ⟨line ++ (c :: run ++ front), a, by simp, noBreak⟩

/-- What the reader of a literal scalar makes of the line ends at its end. -/
def chomped (chomp : Chomp) (text lead empty : List Char) : List Char :=
  match chomp with
  | .strip => text
  | .clip => text ++ lead
  | .keep => text ++ lead ++ empty

private theorem chompOf_word {text : List Char} {a : Char} (noBreak : isBreak a = false) :
    chompOf (text ++ [a]) = .strip := by
  have reversed : (text ++ [a]).reverse = a :: text.reverse := by simp
  rw [chompOf, reversed]
  cases text.reverse <;> simp [noBreak]

private theorem chompOf_break {text : List Char} {c d : Char} (isEnd : isBreak c = true) :
    chompOf (text ++ [d, c]) = if isBreak d then .keep else .clip := by
  have reversed : (text ++ [d, c]).reverse = c :: d :: text.reverse := by simp
  rw [chompOf, reversed]
  simp [isEnd]

private theorem chomped_ends {body ends : List Char} (front : List Char) (lines : Lines body ends) :
    chomped (chompOf (front ++ (body ++ ends))) (front ++ body) (lastEnds ends).1 (lastEnds ends).2 =
      front ++ (body ++ ends) := by
  obtain ⟨init, a, rfl, noBreak⟩ := lines.exists_last
  -- The header was chosen from the last two characters: no line end strips, one clips, two or
  -- more keep. In each case what is kept is what the text ends with.
  rcases List.eq_nil_or_concat' ends with rfl | ⟨others, c, rfl⟩
  · have split : front ++ (init ++ [a] ++ []) = front ++ init ++ [a] := by simp
    rw [split, chompOf_word noBreak]
    simp [chomped]
  have isEnd := lines.breaks c (by simp)
  rcases List.eq_nil_or_concat' others with rfl | ⟨run, d, rfl⟩
  · have split : front ++ (init ++ [a] ++ ([] ++ [c])) = front ++ init ++ [a, c] := by simp
    rw [split, chompOf_break isEnd, noBreak]
    simp [chomped, lastEnds]
  · have split : front ++ (init ++ [a] ++ (run ++ [d] ++ [c])) =
        front ++ init ++ a :: run ++ [d, c] := by simp
    rw [split, chompOf_break isEnd, lines.breaks d (by simp)]
    cases run <;> simp [chomped, lastEnds]

/-- The line ends of a text of nothing else are kept. -/
private theorem chompOf_breaks {c : Char} {run : List Char}
    (breaks : ∀ d ∈ c :: run, isBreak d = true) :
    chompOf (c :: run) = .keep := by
  rcases List.eq_nil_or_concat' run with rfl | ⟨others, e, rfl⟩
  · simp [chompOf, breaks c (by simp)]
  · obtain ⟨front, d, split⟩ : ∃ front d, c :: others = front ++ [d] :=
      ⟨_, _, (List.dropLast_concat_getLast (List.cons_ne_nil c others)).symm⟩
    have same : c :: (others ++ [e]) = front ++ [d, e] := by
      rw [← List.cons_append, split]
      simp
    rw [same] at breaks ⊢
    rw [chompOf_break (breaks e (by simp)), breaks d (by simp)]
    rfl

/-- Behind the header there are empty lines and lines. -/
private theorem block?_marks {margin : Nat} {isHinted : Bool} {chomp : Chomp} {rest : List Char}
    {p : Position}
    (found : p.rest = '|' :: (hintMark isHinted ++ (chompMark chomp ++ '\n' :: rest))) :
    ∃ index, ∀ {empty text lead left : List Char} {deepest : Nat} {q r : Position},
      blankLines? (if isHinted then some (margin - 1 + 2) else none) (rest.length + 1) [] 0
        ⟨rest, p.line + 1, 0, index, p.fresh⟩ = some (empty, deepest, q) →
      blockLines? true (if isHinted then margin - 1 + 2 else max deepest (max margin 1))
        (rest.length + 1) [] [] empty false q = some (text, lead, left, r) →
      block? margin p = some (.literal, chomped chomp text lead left, { r with fresh := true }) := by
  have header := @blockHeader?_marks isHinted chomp (p.advance 1) rest (by simp [found])
  have behind : ((p.advance 1).advance ((hintMark isHinted).length + (chompMark chomp).length)).rest =
      '\n' :: rest := by
    simp [found, List.drop_append]
  -- From here on it only matters what is left behind the header, and on which line that is.
  generalize headerEnd :
    (p.advance 1).advance ((hintMark isHinted).length + (chompMark chomp).length) = q at header behind
  have sameLine : q.line = p.line ∧ q.fresh = p.fresh := by simp [← headerEnd]
  have noSpace : (q.skipWhile isSpace).skipComment = q := by
    have noBlank : q.skipWhile isSpace = q := by
      rw [Position.skipWhile, behind, List.takeWhile_cons_of_neg (by decide)]
      rfl
    rw [noBlank, Position.skipComment, if_neg]
    simp [Position.at?, behind]
  have isLiteral : p.at? '|' = true := by simp [Position.at?, found]
  refine ⟨q.index + 1, fun blank lines => ?_⟩
  have given : (Option.map (fun indent => margin - 1 + indent) (if isHinted then some 2 else none)) =
      if isHinted then some (margin - 1 + 2) else none := by
    cases isHinted <;> rfl
  have indent (deepest : Nat) : (if isHinted then some (margin - 1 + 2) else none).getD
      (max deepest (max margin 1)) = if isHinted then margin - 1 + 2 else max deepest (max margin 1) := by
    cases isHinted <;> rfl
  simp only [block?, header, isLiteral, Option.bind_eq_bind, Option.bind_some, noSpace,
    Position.breakLine?_plain (.inl rfl) behind, sameLine, given, blank, indent, lines]
  cases chomp <;> rfl

private theorem literalLines_text {indent : Nat} {run body ends : List Char}
    (lines : Lines body ends)
    (runBreaks : ∀ c ∈ run, isBreak c = true) :
    literalLines indent true (run ++ (body ++ ends)) =
      run ++ (blanks indent ++ (literalLines indent false body ++ ends)) := by
  have head : (body ++ ends).head? = body.head? := List.head?_append_of_ne_nil _ lines.nonempty
  have indented : literalLines indent true (body ++ ends) =
      blanks indent ++ (literalLines indent false body ++ ends) := by
    rw [literalLines_indented (by simp [lines.nonempty]) (head ▸ lines.head),
      literalLines_append lines]
  cases run with
  | nil => exact indented
  | cons c run => rw [literalLines_breaks runBreaks, indented]

private theorem length_le_length_literalLines {indent : Nat} (lineStart : Bool) (text : List Char) :
    text.length ≤ (literalLines indent lineStart text).length := by
  induction text generalizing lineStart with
  | nil => simp
  | cons c text ih =>
    rw [literalLines]
    split
    · exact Nat.succ_le_succ (ih true)
    · have rest := ih false
      simp
      omega

/-- A text whose indentation need not be given starts with a character that is not a blank. -/
private theorem head_of_not_hinted {run text : List Char} (shown : hinted (run ++ text) = false)
    (breaks : ∀ c ∈ run, isBreak c = true) : run = [] ∧ text.head? ≠ some ' ' := by
  -- A line end or a blank in front would have made the printer give the indentation.
  cases run with
  | nil =>
    refine ⟨rfl, fun isBlank => ?_⟩
    cases text with
    | nil => cases isBlank
    | cons c text =>
      obtain rfl : c = ' ' := by simpa using isBlank
      simp [hinted] at shown
  | cons c run => simp [hinted, breaks c] at shown

/-- The last character of a text is the last one of its lines. -/
private theorem literalLines_concat {indent : Nat} (lineStart : Bool) (text : List Char)
    (c : Char) :
    ∃ front, literalLines indent lineStart (text ++ [c]) = front ++ [c] := by
  induction text generalizing lineStart with
  | nil =>
    refine ⟨if Printer.isLineEnd c then [] else if lineStart then blanks indent else [], ?_⟩
    rw [List.nil_append, literalLines, literalLines, literalLines]
    split <;> simp
  | cons d text ih =>
    rw [List.cons_append, literalLines]
    split
    · obtain ⟨front, written⟩ := ih true
      exact ⟨d :: front, congrArg (d :: ·) written⟩
    · obtain ⟨front, written⟩ := ih false
      exact ⟨(if lineStart then blanks indent else []) ++ d :: front, by simp [written]⟩

private theorem nextLine_lines {front body ends after : List Char} {indent : Nat}
    (lines : Lines body ends) :
    Printer.nextLine (front ++ (literalLines indent false body ++ ends)) after =
      front ++ (literalLines indent false body ++ lastLine ends after) := by
  rcases List.eq_nil_or_concat' ends with rfl | ⟨others, c, rfl⟩
  · obtain ⟨init, a, rfl, noBreak⟩ := lines.exists_last
    obtain ⟨written, same⟩ := @literalLines_concat indent false init a
    rw [List.append_nil, same, nextLine_word (by simp [noBreak])]
    simp [lastLine]
  · rw [nextLine_break (by simp) (lines.breaks c (by simp))]
    cases others <;> simp [lastLine]

/-- A literal scalar is its header, the empty lines at the front, and its lines from the indentation
of the first one on. -/
private theorem nextLine_literal {indent : Nat} {run body ends : List Char}
    (lines : Lines body ends)
    (runBreaks : ∀ c ∈ run, isBreak c = true) (after : List Char) :
    Printer.nextLine (Printer.literal indent (run ++ (body ++ ends))) after =
      '|' :: (hintMark (hinted (run ++ (body ++ ends))) ++
        (chompMark (chompOf (run ++ (body ++ ends))) ++ '\n' ::
          (run ++ (blanks indent ++ (literalLines indent false body ++ lastLine ends after))))) := by
  rw [literal_eq, literalLines_text lines runBreaks]
  generalize hintMark _ = hint
  generalize chompMark _ = chomp
  have line := @nextLine_lines ('|' :: (hint ++ (chomp ++ '\n' :: (run ++ blanks indent)))) body ends
    after indent lines
  simpa using line

/-- Whether or not the header gives the indentation, the reader arrives at the first line with the
one that it was written with. -/
private theorem blankLines?_front {indent : Nat} {run text behind : List Char} {p : Position}
    (runPlain : ∀ c ∈ run, IsPlainBreak c) (noTab : text.head? ≠ some '\t')
    (noBreak : ∀ c ∈ text.head?, isBreak c = false) (head : behind.head? = text.head?)
    (found : p.rest = run ++ (blanks indent ++ behind)) (front : p.column = 0) :
    ∃ q, blankLines? (if hinted (run ++ text) then some indent else none) (p.rest.length + 1) [] 0 p =
        some (run, indent, q) ∧ q.rest = behind ∧ q.column = indent ∧ p.line ≤ q.line := by
  cases shown : hinted (run ++ text) with
  | true =>
    -- The header gives the indentation, so empty lines are told from lines by it.
    have blank := blankLines?_indented runPlain front found (head ▸ noBreak)
    exact ⟨_, blank, rfl, rfl, Nat.le_add_right _ _⟩
  | false =>
    -- The first line shows its indentation.
    obtain ⟨rfl, noBlank⟩ := head_of_not_hinted shown fun c member => (runPlain c member).isBreak
    have starts : StartsWord behind := fun c member => by
      rw [head] at member
      have notBlank : c ≠ ' ' := fun same => noBlank (same ▸ member)
      have notTab : c ≠ '\t' := fun same => noTab (same ▸ member)
      exact ⟨by simp [isSpace, notBlank, notTab], noBreak c member⟩
    have blank := @blankLines?_stop none indent p.rest.length 0 [] behind p (by simp) found front starts
    rw [Nat.zero_max] at blank
    refine ⟨_, blank, ?_, ?_, Nat.le_refl _⟩
    · rw [Position.rest_advance, found]
      exact List.drop_left' (length_blanks indent)
    · show p.column + indent = indent
      rw [front, Nat.zero_add]

section Whole

variable {margin column : Nat} {rest : List Char} {p : Position} (positive : 1 ≤ margin)
  (left : column ≤ margin) (starts : StartsWord rest)
include positive left starts

/-- A text of line ends alone is empty lines that are kept. -/
private theorem block?_breaks {c : Char} {run : List Char} (plain : ∀ d ∈ c :: run, IsPlainBreak d)
    (found : p.rest =
      Printer.nextLine (Printer.literal (margin + 1) (c :: run)) (blanks column ++ rest)) :
    ∃ q, block? margin p = some (.literal, c :: run, q) ∧ q.rest = rest ∧ q.column = column ∧
      q.fresh = true ∧ p.line < q.line := by
  have breaks : ∀ d ∈ c :: run, isBreak d = true := fun d member => (plain d member).isBreak
  have given : hinted (c :: run) = true := by simp [hinted, breaks c]
  have written : literalLines (margin + 1) true (c :: run) = c :: run := literalLines_ends breaks
  have here : p.rest = '|' :: (hintMark true ++ (chompMark .keep ++ '\n' ::
      (c :: run ++ (blanks column ++ rest)))) := by
    obtain ⟨front, d, split⟩ : ∃ front d, c :: run = front ++ [d] :=
      ⟨_, _, (List.dropLast_concat_getLast (List.cons_ne_nil c run)).symm⟩
    rw [found, literal_eq, given, chompOf_breaks breaks, written, split,
      @nextLine_break _ _ d (by simp [List.getLast?_cons]) (breaks d (by simp [split]))]
    simp
  have inside : margin - 1 + 2 = margin + 1 := by omega
  -- What comes next is further left, so no line is read after the empty ones.
  have outside : column ≠ margin + 1 := by omega
  obtain ⟨index, read⟩ := @block?_marks margin true .keep _ p here
  have blank := @blankLines?_left (margin + 1) (c :: run) rest
    ⟨c :: run ++ (blanks column ++ rest), p.line + 1, 0, index, p.fresh⟩ plain rfl column (by omega)
    rfl starts
  simp only [if_true, inside] at read
  refine ⟨_, read blank (if_neg fun here => outside here.1), rfl, rfl, rfl, ?_⟩
  show p.line < p.line + 1 + (c :: run).length
  omega

private theorem block?_lines {run body ends : List Char} (lines : Lines body ends)
    (runPlain : ∀ c ∈ run, IsPlainBreak c) (noTab : body.head? ≠ some '\t')
    (plain : ∀ c ∈ body ++ ends, isBreak c = true → IsPlainBreak c)
    (found : p.rest = Printer.nextLine (Printer.literal (margin + 1) (run ++ (body ++ ends)))
      (blanks column ++ rest)) :
    ∃ q, block? margin p = some (.literal, run ++ (body ++ ends), q) ∧ q.rest = rest ∧
      q.column = column ∧ q.fresh = true ∧ p.line < q.line := by
  have runBreaks : ∀ c ∈ run, isBreak c = true := fun c member => (runPlain c member).isBreak
  have here := found.trans (nextLine_literal lines runBreaks _)
  generalize inLines : literalLines (margin + 1) false body ++ lastLine ends (blanks column ++ rest) =
    behind at here
  obtain ⟨index, read⟩ := @block?_marks margin _ _ _ p here
  -- A hint gives the indentation, and without one the first line does; they are the same.
  have inside : margin - 1 + 2 = margin + 1 := by omega
  have deeper : max (margin + 1) (max margin 1) = margin + 1 := by omega
  simp only [inside] at read
  have start : (body ++ ends).head? = body.head? := List.head?_append_of_ne_nil _ lines.nonempty
  have head : behind.head? = (body ++ ends).head? := by
    rw [← inLines, head?_literalLines lines.nonempty lines.head, start]
  obtain ⟨q, blank, atLines, atIndent, below⟩ :=
    @blankLines?_front (margin + 1) run (body ++ ends) behind
    ⟨run ++ (blanks (margin + 1) ++ behind), p.line + 1, 0, index, p.fresh⟩ runPlain
    (start ▸ noTab) (start ▸ lines.head) head rfl rfl
  have enough : body.length < (run ++ (blanks (margin + 1) ++ behind)).length + 1 := by
    have written := @length_le_length_literalLines (margin + 1) false body
    have long : behind.length = _ := (congrArg List.length inLines).symm
    simp only [List.length_append] at long ⊢
    omega
  obtain ⟨r, done, atRest, atColumn, lower⟩ := @blockLines?_lines (margin + 1) _ column [] [] run body
    ends rest false q lines plain (atLines.trans inLines.symm) atIndent (by omega) starts enough
  have result := read blank (by rw [deeper, ite_self]; exact done)
  rw [List.nil_append, List.nil_append, chomped_ends run lines] at result
  exact ⟨_, result, atRest, atColumn, rfl, Nat.lt_trans below lower⟩

/-- A literal scalar is read back, up to a place further left. -/
theorem block?_literal {text : List Char} (nonempty : text ≠ []) (noTab : '\t' ∉ text)
    (plain : ∀ c ∈ text, isBreak c = true → IsPlainBreak c)
    (found : p.rest = Printer.nextLine (Printer.literal (margin + 1) text) (blanks column ++ rest)) :
    ∃ q, block? margin p = some (.literal, text, q) ∧ q.rest = rest ∧ q.column = column ∧
      q.fresh = true ∧ p.line < q.line := by
  obtain ⟨run, behind, rfl, runBreaks, stop⟩ := exists_front isBreak text
  have runPlain : ∀ c ∈ run, IsPlainBreak c := fun c member =>
    plain c (List.mem_append_left _ member) (runBreaks c member)
  -- A text of line ends alone has no first line to tell the indentation.
  cases behind with
  | nil =>
    rw [List.append_nil] at nonempty found ⊢
    obtain ⟨c, run, rfl⟩ := List.exists_cons_of_ne_nil nonempty
    exact block?_breaks positive left starts runPlain found
  | cons d others =>
    obtain ⟨body, ends, same, lines⟩ := exists_lines (List.cons_ne_nil d others) stop
    rw [same] at noTab plain found ⊢
    have noTab : body.head? ≠ some '\t' := fun isTab =>
      noTab (by simp [List.mem_of_mem_head? isTab])
    exact block?_lines positive left starts lines runPlain noTab
      (fun c member => plain c (List.mem_append_right _ member)) found

end Whole

end Scalar
end Blueprint.Yaml
