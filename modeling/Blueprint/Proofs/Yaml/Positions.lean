import Blueprint.Yaml.Scalar
import Blueprint.Yaml.Printer

/-!
# Going to the next token

Between the parts of a value that is written in block style there is a blank, or the end of a line
and an indentation. Both are skipped, and both end a scalar: its reader goes over the same
characters and stops where the next token starts.
-/

namespace Blueprint.Yaml

open Printer (blanks nextLine)

theorem isLineEnd_eq_isBreak : Printer.isLineEnd = isBreak := rfl

theorem endsWord_eq : Printer.endsWord = endsWord := by
  funext text
  cases text <;> rfl

/-- A text that starts with a token, or has ended: nothing in front of it is skipped. -/
def Starts : List Char → Prop
  | [] => True
  | c :: _ => isSpace c = false ∧ isBreak c = false ∧ c ≠ '#'

/-- The line ends that are written as themselves. -/
def IsPlainBreak (c : Char) : Prop :=
  c = '\n' ∨ c = '\u2028' ∨ c = '\u2029'

theorem IsPlainBreak.isBreak {c : Char} (plain : IsPlainBreak c) : isBreak c = true := by
  rcases plain with rfl | rfl | rfl <;> rfl

theorem IsPlainBreak.isSpace {c : Char} (plain : IsPlainBreak c) : isSpace c = false := by
  rcases plain with rfl | rfl | rfl <;> rfl

theorem length_blanks (count : Nat) : (blanks count).length = count :=
  List.length_replicate

theorem takeWhile_blanks_append (test : Char → Bool) (isBlank : test ' ' = true) (count : Nat)
    (rest : List Char) :
    (blanks count ++ rest).takeWhile test = blanks count ++ rest.takeWhile test := by
  -- Every character of the run is the blank the test holds of.
  refine List.takeWhile_append_of_pos fun c member => ?_
  rw [List.eq_of_mem_replicate member, isBlank]

theorem cons_blanks_append (count : Nat) (rest : List Char) :
    ' ' :: (blanks count ++ rest) = blanks count ++ ' ' :: rest := by
  induction count with
  | zero => rfl
  | succ count ih => exact congrArg (' ' :: ·) ih

/-- The longest front of a text whose characters satisfy a test. -/
theorem exists_front (test : Char → Bool) (text : List Char) :
    ∃ front rest, text = front ++ rest ∧ (∀ c ∈ front, test c = true) ∧
      ∀ c ∈ rest.head?, test c = false := by
  induction text with
  | nil => exact ⟨[], [], rfl, by simp, by simp⟩
  | cons c text ih =>
    cases passes : test c with
    | true =>
      obtain ⟨front, rest, rfl, inside, stop⟩ := ih
      exact ⟨c :: front, rest, rfl, List.forall_mem_cons.mpr ⟨passes, inside⟩, stop⟩
    | false => exact ⟨[], c :: text, rfl, by simp, by simpa using passes⟩

/-- The blanks in front of a text. -/
theorem exists_blanks (text : List Char) :
    ∃ count rest, text = blanks count ++ rest ∧ rest.head? ≠ some ' ' := by
  obtain ⟨front, rest, rfl, inside, stop⟩ := exists_front (· == ' ') text
  refine ⟨front.length, rest, ?_, fun isBlank => by simpa using stop ' ' isBlank⟩
  have same : front = blanks front.length :=
    List.eq_replicate_of_mem fun c member => by simpa using inside c member
  rw [← same]

namespace Position

@[simp] theorem advance_zero (p : Position) : p.advance 0 = p := rfl

@[simp] theorem rest_advance (p : Position) (count : Nat) :
    (p.advance count).rest = p.rest.drop count := rfl

@[simp] theorem line_advance (p : Position) (count : Nat) : (p.advance count).line = p.line := rfl

@[simp] theorem column_advance (p : Position) (count : Nat) :
    (p.advance count).column = p.column + count := rfl

@[simp] theorem index_advance (p : Position) (count : Nat) :
    (p.advance count).index = p.index + count := rfl

@[simp] theorem fresh_advance (p : Position) (count : Nat) : (p.advance count).fresh = p.fresh := rfl

theorem advance_advance (p : Position) (first second : Nat) :
    (p.advance first).advance second = p.advance (first + second) := by
  simp [advance, List.drop_drop, Nat.add_assoc]

/-- Only at the front of a line a document starts or ends. -/
theorem atDocumentBoundary_of_column {p : Position} (inside : p.column ≠ 0) :
    p.atDocumentBoundary = false := by
  simp [atDocumentBoundary, atDocumentMark, inside]

theorem breakLine?_eq_none {p : Position} (noBreak : ∀ c ∈ p.rest.head?, isBreak c = false) :
    p.breakLine? = none := by
  unfold breakLine?
  split
  all_goals first
    | rfl
    | rename_i found; simp [found, isBreak] at noBreak

theorem breakLine?_plain {p : Position} {c : Char} {rest : List Char}
    (plain : IsPlainBreak c) (found : p.rest = c :: rest) :
    p.breakLine? =
      some ([c], { p with rest, line := p.line + 1, column := 0, index := p.index + 1 }) := by
  rcases plain with rfl | rfl | rfl <;> simp [breakLine?, found]

private theorem skipComment_of_starts {p : Position} (starts : Starts p.rest) :
    p.skipComment = p := by
  rw [skipComment, if_neg]
  rw [at?]
  cases found : p.rest with
  | nil => simp
  | cons c rest =>
    rw [found] at starts
    simpa using starts.2.2

/-- Blanks are skipped up to a token on the same line. -/
private theorem skipFrom_blanks {inFlow : Bool} {fuel count : Nat} {p : Position} {rest : List Char}
    (found : p.rest = blanks count ++ rest) (starts : Starts rest) :
    skipFrom inFlow (fuel + 1) p = p.advance count := by
  have past : p.skipWhile (fun c => c == ' ' || (c == '\t' && (inFlow || !p.fresh))) =
      p.advance count := by
    -- A token starts with neither a blank nor a tab, so tabs need no case of their own.
    have stop : rest.takeWhile (fun c => c == ' ' || (c == '\t' && (inFlow || !p.fresh))) = [] := by
      cases rest with
      | nil => rfl
      | cons c rest =>
        have noSpace := starts.1
        simp only [isSpace, Bool.or_eq_false_iff] at noSpace
        simp [noSpace]
    rw [skipWhile, found, takeWhile_blanks_append _ (by simp), stop, List.append_nil, length_blanks]
  have here : (p.advance count).rest = rest := by
    rw [rest_advance, found, List.drop_left' (length_blanks count)]
  have noComment : (p.advance count).skipComment = p.advance count :=
    skipComment_of_starts (here ▸ starts)
  have noBreak : (p.advance count).breakLine? = none := by
    refine breakLine?_eq_none fun c member => ?_
    rw [here] at member
    cases rest with
    | nil => cases member
    | cons d rest =>
      cases member
      exact starts.2.1
  rw [skipFrom, past, noComment, noBreak]

theorem skip_blanks {inFlow : Bool} {count : Nat} {p : Position} {rest : List Char}
    (found : p.rest = blanks count ++ rest) (starts : Starts rest) :
    p.skip inFlow = p.advance count :=
  skipFrom_blanks found starts

theorem skip_of_starts {inFlow : Bool} {p : Position} (starts : Starts p.rest) :
    p.skip inFlow = p :=
  @skip_blanks inFlow 0 p p.rest rfl starts

/-- A line end is skipped together with the indentation of the next line. -/
theorem skip_newline {count : Nat} {p : Position} {rest : List Char}
    (found : p.rest = '\n' :: (blanks count ++ rest)) (starts : Starts rest) :
    p.skip false =
      ⟨rest, p.line + 1, count, p.index + 1 + count, true⟩ := by
  have noBlank : p.skipWhile (fun c => c == ' ' || (c == '\t' && (false || !p.fresh))) = p := by
    rw [skipWhile, found, List.takeWhile_cons_of_neg (by simp)]
    rfl
  have noComment : p.skipComment = p := by
    rw [skipComment, if_neg]
    simp [at?, found]
  -- The line end itself uses up one unit of fuel, the indentation behind it the next.
  have behind : ∃ fuel, p.rest.length = fuel + 1 := ⟨_, congrArg List.length found⟩
  obtain ⟨fuel, enough⟩ := behind
  rw [skip, enough, skipFrom, noBlank, noComment, breakLine?_plain (.inl rfl) found]
  refine (skipFrom_blanks rfl starts).trans ?_
  simp [advance, List.drop_left' (length_blanks count)]

/-- What comes next stands at the front of a line below a given one, in a column. -/
structure Below (p : Position) (line column : Nat) (rest : List Char) : Prop where
  rest : (p.skip false).rest = rest
  column : (p.skip false).column = column
  fresh : (p.skip false).fresh = true
  line : line < (p.skip false).line

theorem Below.mono {p : Position} {line upper column : Nat} {rest : List Char}
    (below : p.Below line column rest) (above : upper ≤ line) : p.Below upper column rest :=
  ⟨below.rest, below.column, below.fresh, Nat.lt_of_le_of_lt above below.line⟩

theorem Below.skip {p : Position} {line column : Nat} {rest : List Char}
    (below : p.Below line column rest) (starts : Starts rest) :
    (p.skip false).Below line column rest := by
  have same : (p.skip false).skip false = p.skip false :=
    skip_of_starts (below.rest.symm ▸ starts)
  constructor <;> rw [same]
  · exact below.rest
  · exact below.column
  · exact below.fresh
  · exact below.line

theorem below_newline {count : Nat} {p : Position} {rest : List Char}
    (found : p.rest = '\n' :: (blanks count ++ rest)) (starts : Starts rest) :
    p.Below p.line count rest := by
  have skipped := skip_newline found starts
  constructor <;> rw [skipped]
  exact Nat.lt_succ_self p.line

theorem below_of_starts {p : Position} (starts : Starts p.rest) (fresh : p.fresh = true)
    {line : Nat} (behind : line < p.line) : p.Below line p.column p.rest := by
  have skipped : p.skip false = p := skip_of_starts starts
  constructor <;> rw [skipped] <;> assumption

end Position

/-! ## Gaps -/

/-- A text that does not start with a blank or a line end. -/
def StartsWord (text : List Char) : Prop :=
  ∀ c ∈ text.head?, isSpace c = false ∧ isBreak c = false

namespace Gap

theorem readFrom_word {margin fuel : Nat} {gap : Gap} {p : Position} (starts : StartsWord p.rest) :
    readFrom margin (fuel + 1) gap p = some (gap, p) := by
  have noBreak : p.breakLine? = none := Position.breakLine?_eq_none fun c member =>
    (starts c member).2
  rw [readFrom]
  cases found : p.rest with
  | nil => rfl
  | cons c rest =>
    have noSpace := (starts c (by simp [found])).1
    simp [noSpace, noBreak]

/-- Blanks after a line end are indentation. -/
private theorem readFrom_indentation {margin fuel count : Nat} {gap : Gap} {p : Position}
    {rest : List Char}
    (broken : gap.broken = true) (found : p.rest = Printer.blanks count ++ rest)
    (starts : StartsWord rest) :
    readFrom margin (fuel + count + 1) gap p = some (gap, p.advance count) := by
  -- One blank a step: after a line end the reader drops it, and the gap stays as it was.
  induction count generalizing p with
  | zero =>
    have here : p.rest = rest := found
    exact readFrom_word (here ▸ starts)
  | succ count ih =>
    have here : p.rest = ' ' :: (Printer.blanks count ++ rest) := found
    have next := @ih (p.advance 1) (by simp [here])
    rw [← Nat.add_assoc, readFrom, here]
    simpa [isSpace, broken, Position.advance, here, Nat.add_assoc, Nat.add_comm 1] using next

/-- Blanks within a line are kept. -/
private theorem readFrom_blanks {margin fuel count : Nat} {kept : List Char} {p : Position}
    {rest : List Char} (found : p.rest = Printer.blanks count ++ rest) (starts : StartsWord rest) :
    readFrom margin (fuel + count + 1) { blanks := kept } p =
      some ({ blanks := kept ++ Printer.blanks count }, p.advance count) := by
  induction count generalizing p kept with
  | zero =>
    have here : p.rest = rest := found
    simpa [Printer.blanks] using readFrom_word (here ▸ starts)
  | succ count ih =>
    have here : p.rest = ' ' :: (Printer.blanks count ++ rest) := found
    have next := @ih (kept ++ [' ']) (p.advance 1) (by simp [here])
    rw [← Nat.add_assoc, readFrom, here]
    simpa [isSpace, Position.advance, here, Nat.add_assoc, Nat.add_comm 1, Printer.blanks,
      List.replicate_succ] using next

theorem read_blanks {margin count : Nat} {p : Position} {rest : List Char}
    (found : p.rest = Printer.blanks count ++ rest) (starts : StartsWord rest) :
    read margin {} p = some ({ blanks := Printer.blanks count }, p.advance count) := by
  have enough : p.rest.length + 1 = rest.length + count + 1 := by
    rw [found, List.length_append, length_blanks]
    omega
  rw [read, enough]
  exact readFrom_blanks found starts

/-- Line ends after the first one, and the indentation behind them. -/
private theorem readFrom_breaks {margin fuel count : Nat} {gap : Gap} {p : Position}
    {run rest : List Char} (broken : gap.broken = true) (plain : ∀ c ∈ run, IsPlainBreak c)
    (found : p.rest = run ++ (Printer.blanks count ++ rest)) (starts : StartsWord rest)
    (front : p.column = 0) :
    readFrom margin (fuel + count + 1 + run.length) gap p =
      some ({ gap with more := gap.more ++ run },
        ⟨rest, p.line + run.length, count, p.index + run.length + count, p.fresh⟩) := by
  -- One line end a step. The column is back at zero after each, which is what the next one and
  -- the indentation at the end start from.
  induction run generalizing gap p with
  | nil =>
    have here : p.rest = Printer.blanks count ++ rest := found
    have drop : (Printer.blanks count ++ rest).drop count = rest :=
      List.drop_left' (length_blanks count)
    have read := @readFrom_indentation margin fuel count gap p rest broken here starts
    simpa [Position.advance, here, drop, front] using read
  | cons c run ih =>
    obtain ⟨isPlain, others⟩ := List.forall_mem_cons.mp plain
    have here : p.rest = c :: (run ++ (Printer.blanks count ++ rest)) := found
    have noSpace := isPlain.isSpace
    rw [List.length_cons, ← Nat.add_assoc, readFrom, here]
    simp only [noSpace, Position.breakLine?_plain isPlain here, broken]
    have next := @ih { gap with more := gap.more ++ [c] }
      ⟨run ++ (Printer.blanks count ++ rest), p.line + 1, 0, p.index + 1, p.fresh⟩
      broken others rfl rfl
    simpa [front, broken, Nat.add_assoc, Nat.add_comm, Nat.add_left_comm] using next

/-- A run of line ends, and the indentation behind it. -/
theorem read_breaks {margin count : Nat} {p : Position} {c : Char} {run rest : List Char}
    (plain : ∀ d ∈ c :: run, IsPlainBreak d)
    (found : p.rest = c :: (run ++ (Printer.blanks count ++ rest))) (starts : StartsWord rest) :
    read margin {} p = some ({ broken := true, first := [c], more := run },
      ⟨rest, p.line + 1 + run.length, count, p.index + 1 + run.length + count, p.fresh⟩) := by
  -- The first line end is the one a reader folds, so the gap keeps it apart from the others.
  obtain ⟨isPlain, others⟩ := List.forall_mem_cons.mp plain
  have noSpace := isPlain.isSpace
  have enough : p.rest.length = rest.length + count + 1 + run.length := by
    rw [found]
    simp only [List.length_cons, List.length_append, length_blanks]
    omega
  rw [read, readFrom, enough, found]
  simp only [noSpace, Position.breakLine?_plain isPlain found]
  exact readFrom_breaks rfl others rfl starts rfl

end Gap

/-! ## Lines below one another -/

theorem nextLine_word {text after : List Char} (last : ∀ c ∈ text.getLast?, isBreak c = false) :
    nextLine text after = text ++ '\n' :: after := by
  rw [nextLine, isLineEnd_eq_isBreak]
  cases ends : text.getLast? with
  | none => rfl
  | some c => simp [last c ends]

/-- A text that ends its last line itself is followed at once. -/
theorem nextLine_break {text after : List Char} {c : Char} (last : text.getLast? = some c)
    (isEnd : isBreak c = true) : nextLine text after = text ++ after := by
  simp [nextLine, isLineEnd_eq_isBreak, last, isEnd]

theorem nextLine_append (front : List Char) {text : List Char} (nonempty : text ≠ [])
    (after : List Char) : nextLine (front ++ text) after = front ++ nextLine text after := by
  have last : (front ++ text).getLast? = text.getLast? := by
    rw [List.getLast?_append, List.getLast?_eq_some_getLast nonempty]
    rfl
  rw [nextLine, nextLine, last]
  split <;> simp

/-- What stands in front of the next line does not depend on that line. -/
theorem exists_nextLine (text : List Char) :
    ∃ rest, ∀ after, nextLine text after = text ++ rest ++ after := by
  cases ends : (text.getLast?.map Printer.isLineEnd).getD false with
  | true => exact ⟨[], fun after => by simp [nextLine, ends]⟩
  | false => exact ⟨['\n'], fun after => by simp [nextLine, ends]⟩

theorem nextLine_ne_nil {text : List Char} (nonempty : text ≠ []) (after : List Char) :
    nextLine text after ≠ [] := by
  obtain ⟨rest, split⟩ := exists_nextLine text
  simp [split, nonempty]

theorem length_nextLine_ge (text after : List Char) :
    text.length + after.length ≤ (nextLine text after).length := by
  obtain ⟨rest, split⟩ := exists_nextLine text
  rw [split, List.length_append, List.length_append]
  omega

theorem nextLine_nextLine (first : List Char) {second : List Char} (nonempty : second ≠ [])
    (after : List Char) :
    nextLine (nextLine first second) after = nextLine first (nextLine second after) := by
  obtain ⟨rest, split⟩ := exists_nextLine first
  rw [split, split, nextLine_append _ nonempty]

end Blueprint.Yaml
