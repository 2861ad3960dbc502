import Blueprint.Proofs.Yaml.JsonTokens

/-!
# Line ends in JSON strings

JSON escapes line feeds and returns, but not the other line ends of YAML. Between double quotation
marks a YAML reader takes them, and the blanks beside them, for a gap between words, and where one
of them stands directly before the mark of a document it refuses the string. So what is read of a
JSON string is not always its text; it is what the text is folded to (`folded?`).
-/

namespace Blueprint.Yaml

/-! ## Gaps -/

/-- What a reader keeps of a line end that JSON leaves as it is. -/
def keptBreak (c : Char) : Char :=
  if c = '\x85' then '\n' else c

/-- The characters of a JSON string that are a gap in YAML. There is no tab: JSON escapes it. -/
def isGap (c : Char) : Bool :=
  c == ' ' || isBareBreak c

theorem isGap_iff {c : Char} :
    isGap c = true ↔ c = ' ' ∨ c = '\x85' ∨ c = '\u2028' ∨ c = '\u2029' := by
  rw [isGap, Bool.or_eq_true, beq_iff_eq, isBareBreak_iff]

private theorem eq_blank_of_isGap {c : Char} (gap : isGap c = true)
    (noBreak : isBareBreak c = false) :
    c = ' ' := by
  simpa [isGap, noBreak] using gap

theorem isBareBreak_of_not_isGap {c : Char} (noGap : isGap c = false) : isBareBreak c = false :=
  (Bool.or_eq_false_iff.mp noGap).2

namespace Gap

/-- A gap with one more character. -/
def take (gap : Gap) (c : Char) : Gap :=
  if isBareBreak c then
    if gap.broken then { gap with more := gap.more ++ [keptBreak c] }
    else { gap with broken := true, blanks := [], first := [keptBreak c] }
  else if gap.broken then gap
  else { gap with blanks := gap.blanks ++ [c] }

/-- The gap that a reader makes of a run of blanks and line ends. -/
def ofRun (run : List Char) : Gap :=
  run.foldl take {}

/-- Whether a run ends with a line end. -/
def endsLine (run : List Char) : Bool :=
  (run.getLast?.map isBareBreak).getD false

/-- A reader takes a character of a gap; a line end leaves it at the front of a line. -/
private theorem exists_readFrom_take {fuel : Nat} {gap : Gap} {p : Position} {c : Char}
    {rest : List Char}
    (isGap : isGap c = true) (found : p.rest = c :: rest) :
    ∃ q : Position, readFrom 0 (fuel + 1) gap p = readFrom 0 fuel (gap.take c) q ∧ q.rest = rest ∧
      q.line = p.line + (if isBareBreak c then 1 else 0) ∧ q.fresh = p.fresh ∧
      (q.column == 0) = isBareBreak c := by
  -- A blank stays on its line; a line end starts a new one.
  cases bare : isBareBreak c with
  | false =>
    obtain rfl := eq_blank_of_isGap isGap bare
    refine ⟨p.advance 1, ?_, by simp [found], by simp, rfl, by simp⟩
    simp only [readFrom, found, take, bare, isSpace, beq_self_eq_true, Bool.true_or, if_true,
      Nat.not_lt_zero, and_false, if_false, Bool.false_eq_true]
    split <;> rfl
  | true =>
    have ends : p.breakLine? = some ([keptBreak c],
        { p with rest, line := p.line + 1, column := 0, index := p.index + 1 }) := by
      rcases isBareBreak_iff.mp bare with rfl | rfl | rfl <;>
        simp [Position.breakLine?, found, keptBreak]
    have noSpace : isSpace c = false := by
      rcases isBareBreak_iff.mp bare with rfl | rfl | rfl <;> rfl
    refine ⟨{ p with rest, line := p.line + 1, column := 0, index := p.index + 1 }, ?_, rfl, rfl, rfl,
      rfl⟩
    simp only [readFrom, found, take, bare, noSpace, ends, Bool.false_eq_true, if_true, if_false]
    split <;> rfl

/-- A run of blanks and line ends is read up to the word behind it. -/
private theorem exists_readFrom_run {fuel : Nat} {gap : Gap} {run rest : List Char} {p : Position}
    (gaps : ∀ c ∈ run, isGap c = true) (starts : StartsWord rest) (found : p.rest = run ++ rest)
    (enough : run.length < fuel) :
    ∃ q : Position, readFrom 0 fuel gap p = some (run.foldl take gap, q) ∧ q.rest = rest ∧
      q.line = p.line + run.countP isBareBreak ∧ q.fresh = p.fresh ∧
      (q.column == 0) = (run.getLast?.map isBareBreak).getD (p.column == 0) := by
  -- One character a step. Only the last one tells whether the reader is left at the front of a line.
  induction run generalizing gap p fuel with
  | nil =>
    obtain ⟨fuel, rfl⟩ : ∃ n, fuel = n + 1 := ⟨fuel - 1, by simp at enough; omega⟩
    have here : p.rest = rest := found
    exact ⟨p, readFrom_word (here ▸ starts), here, rfl, rfl, rfl⟩
  | cons c run ih =>
    obtain ⟨fuel, rfl⟩ : ∃ n, fuel = n + 1 := ⟨fuel - 1, by simp at enough; omega⟩
    obtain ⟨isGap, others⟩ := List.forall_mem_cons.mp gaps
    obtain ⟨q, step, here, line, fresh, column⟩ := @exists_readFrom_take fuel gap p c (run ++ rest)
      isGap found
    obtain ⟨r, read, left, below, same, front⟩ := @ih fuel (gap.take c) q others here
      (Nat.lt_of_succ_lt_succ enough)
    refine ⟨r, step.trans read, left, ?_, same.trans fresh, ?_⟩
    · rw [below, line, List.countP_cons]
      omega
    · rw [front, column, List.getLast?_cons]
      cases run.getLast? <;> rfl

private theorem exists_read_run {run rest : List Char} {p : Position} (nonempty : run ≠ [])
    (gaps : ∀ c ∈ run, isGap c = true) (starts : StartsWord rest) (found : p.rest = run ++ rest) :
    ∃ q : Position, read 0 {} p = some (ofRun run, q) ∧ q.rest = rest ∧
      q.line = p.line + run.countP isBareBreak ∧ q.fresh = p.fresh ∧
      (q.column == 0) = endsLine run := by
  obtain ⟨q, read, left, line, fresh, column⟩ := @exists_readFrom_run (p.rest.length + 1) {} run rest p
    gaps starts found (by rw [found, List.length_append]; omega)
  refine ⟨q, read, left, line, fresh, ?_⟩
  rw [column, endsLine, List.getLast?_eq_some_getLast nonempty]
  rfl

end Gap

/-! ## Folding -/

/-- Whether a text starts with the mark of a document, which has a gap behind it. -/
def opensDocument (text : List Char) : Bool :=
  (['-', '-', '-'].isPrefixOf text || ['.', '.', '.'].isPrefixOf text) &&
    ((text.drop 3).head?.map isGap).getD false

/-- What a reader makes of the text of a JSON string behind a run of blanks and line ends. -/
def foldedFrom? (run : List Char) : List Char → Option (List Char)
  | [] => some (Gap.ofRun run).folded
  | c :: text =>
    if isGap c then foldedFrom? (run ++ [c]) text
    else if Gap.endsLine run && opensDocument (c :: text) then none
    else (foldedFrom? [] text).map fun folded => (Gap.ofRun run).folded ++ c :: folded

/-- What a reader makes of the text of a JSON string. -/
def folded? (text : List Char) : Option (List Char) :=
  foldedFrom? [] text

theorem folded?_word {word : List Char} (noGap : ∀ c ∈ word, isGap c = false) (text : List Char) :
    folded? (word ++ text) = (folded? text).map (word ++ ·) := by
  induction word with
  | nil => simp
  | cons c word ih =>
    obtain ⟨noGap, others⟩ := List.forall_mem_cons.mp noGap
    have step : folded? (c :: (word ++ text)) = (folded? (word ++ text)).map (c :: ·) := by
      simp [folded?, foldedFrom?, noGap, Gap.endsLine, Gap.ofRun, Gap.folded]
    rw [List.cons_append, step, ih others, Option.map_map]
    rfl

private theorem foldedFrom?_run {front run : List Char} (gaps : ∀ c ∈ run, isGap c = true)
    (text : List Char) : foldedFrom? front (run ++ text) = foldedFrom? (front ++ run) text := by
  induction run generalizing front with
  | nil => simp
  | cons c run ih =>
    obtain ⟨isGap, others⟩ := List.forall_mem_cons.mp gaps
    rw [List.cons_append, foldedFrom?, if_pos isGap, ih others, List.append_assoc,
      List.singleton_append]

/-- What comes behind a run is folded on its own. -/
theorem folded?_run {run text : List Char} (gaps : ∀ c ∈ run, isGap c = true)
    (stop : ∀ c ∈ text.head?, isGap c = false) :
    folded? (run ++ text) =
      if Gap.endsLine run && opensDocument text then none
      else (folded? text).map ((Gap.ofRun run).folded ++ ·) := by
  rw [folded?, foldedFrom?_run gaps, List.nil_append]
  cases text with
  | nil => simp [folded?, foldedFrom?, opensDocument, Gap.ofRun, Gap.folded]
  | cons c text =>
    have noGap := stop c rfl
    have first : folded? (c :: text) = (folded? text).map (c :: ·) :=
      @folded?_word [c] (by simpa using noGap) text
    rw [foldedFrom?, if_neg (by simp [noGap]), first, Option.map_map]
    rfl

/-- A text is a word, a run of blanks and line ends, and what comes behind it. -/
theorem exists_word_run (text : List Char) :
    ∃ word run rest, text = word ++ (run ++ rest) ∧ (∀ c ∈ word, isGap c = false) ∧
      (∀ c ∈ run, isGap c = true) ∧ (∀ c ∈ rest.head?, isGap c = false) ∧ (run = [] → rest = []) := by
  obtain ⟨word, behind, rfl, noGap, stop⟩ := exists_front (fun c => !isGap c) text
  obtain ⟨run, rest, rfl, gaps, starts⟩ := exists_front isGap behind
  refine ⟨word, run, rest, rfl, by simpa using noGap, gaps, starts, ?_⟩
  rintro rfl
  -- Behind the word there is a gap or nothing, and no gap starts what comes behind the run.
  cases rest with
  | nil => rfl
  | cons c rest =>
    have isGap : isGap c = true := by simpa using stop c rfl
    rw [starts c rfl] at isGap
    cases isGap

/-! ## Written texts -/

private theorem escapeChar_gap {c : Char} (gap : isGap c = true) : Text.escapeChar c = [c] := by
  rcases isGap_iff.mp gap with rfl | rfl | rfl | rfl <;> rfl

/-- The mark of a document is made of dashes or dots. -/
private theorem escapeChar_mark {c : Char} (mark : c = '-' ∨ c = '.') :
    Text.escapeChar c = [c] := by
  rcases mark with rfl | rfl <;> rfl

private theorem flatMap_escapeChar_eq_self {text : List Char}
    (themselves : ∀ c ∈ text, Text.escapeChar c = [c]) : text.flatMap Text.escapeChar = text := by
  induction text with
  | nil => rfl
  | cons c text ih =>
    obtain ⟨itself, others⟩ := List.forall_mem_cons.mp themselves
    rw [List.flatMap_cons, itself, ih others]
    rfl

private theorem length_le_length_written (text : List Char) :
    text.length ≤ (text.flatMap Text.escapeChar).length := by
  induction text with
  | nil => exact Nat.zero_le _
  | cons c text ih =>
    have positive : 0 < (Text.escapeChar c).length := by
      have escape := jsonEscape_escapeChar c
      generalize Text.escapeChar c = written at escape ⊢
      cases escape <;> simp
    rw [List.flatMap_cons, List.length_cons, List.length_append]
    omega

/-- A character that is no gap is not written like one. -/
private theorem exists_escapeChar {c : Char} (noGap : isGap c = false) :
    ∃ first others, Text.escapeChar c = first :: others ∧ isSpace first = false ∧
      isBreak first = false := by
  obtain ⟨noBlank, noBreak⟩ := Bool.or_eq_false_iff.mp noGap
  have legible := @legible_escapeChar [c] (by simpa using noBreak)
  exact legible.starts c List.mem_cons_self (by simpa using noBlank)

private theorem startsWord_written {text after : List Char}
    (stop : ∀ c ∈ text.head?, isGap c = false) :
    StartsWord (text.flatMap Text.escapeChar ++ '"' :: after) := by
  intro d member
  cases text with
  | nil =>
    obtain rfl : '"' = d := by simpa using member
    decide
  | cons c text =>
    obtain ⟨first, others, written, noSpace, noBreak⟩ := exists_escapeChar (stop c rfl)
    rw [List.flatMap_cons, written] at member
    obtain rfl : first = d := by simpa using member
    exact ⟨noSpace, noBreak⟩

/-- In what is written for a text, a word ends where it ends in the text. -/
private theorem endsWord_written (text after : List Char) :
    endsWord (text.flatMap Text.escapeChar ++ '"' :: after) = (text.head?.map isGap).getD false := by
  cases text with
  | nil => rfl
  | cons c text =>
    cases gap : isGap c with
    | false =>
      obtain ⟨first, others, written, noSpace, noBreak⟩ := exists_escapeChar gap
      simp [written, endsWord, noSpace, noBreak, gap]
    | true =>
      have blank : (isSpace c || isBreak c) = true := by
        rcases isGap_iff.mp gap with rfl | rfl | rfl | rfl <;> rfl
      simp [escapeChar_gap gap, endsWord, blank, gap]

/-- Nothing but dashes and dots is written like a mark of them. -/
private theorem isPrefixOf_written {mark : List Char} (chars : ∀ c ∈ mark, c = '-' ∨ c = '.')
    (text after : List Char) :
    mark.isPrefixOf (text.flatMap Text.escapeChar ++ '"' :: after) = mark.isPrefixOf text := by
  -- A character that is not of the mark itself is written as itself or with a backslash in front, and
  -- neither is the next character of the mark.
  induction mark generalizing text with
  | nil => simp
  | cons m mark ih =>
    obtain ⟨isMark, others⟩ := List.forall_mem_cons.mp chars
    cases text with
    | nil => rcases isMark with rfl | rfl <;> rfl
    | cons c text =>
      rw [List.flatMap_cons]
      by_cases same : m = c
      · subst same
        rw [escapeChar_mark isMark, List.append_assoc, List.singleton_append,
          List.isPrefixOf_cons_cons, List.isPrefixOf_cons_cons, ih others]
      · have escape := jsonEscape_escapeChar c
        generalize Text.escapeChar c = written at escape
        have noBackslash : (m == '\\') = false := by rcases isMark with rfl | rfl <;> rfl
        cases escape <;> simp [List.isPrefixOf, beq_false_of_ne same, noBackslash]

private theorem atDocumentMark_written {mark text after : List Char} {p : Position}
    (chars : ∀ c ∈ mark, c = '-' ∨ c = '.') (three : mark.length = 3)
    (found : p.rest = text.flatMap Text.escapeChar ++ '"' :: after) :
    p.atDocumentMark mark =
      (p.column == 0 && (mark.isPrefixOf text && ((text.drop 3).head?.map isGap).getD false)) := by
  rw [Position.atDocumentMark, found, isPrefixOf_written chars, Bool.and_assoc]
  cases here : mark.isPrefixOf text with
  | false => rfl
  | true =>
    -- The mark is written as itself, so what is three characters behind is what is written behind it.
    obtain ⟨rest, rfl⟩ := List.isPrefixOf_iff_prefix.mp here
    have itself := flatMap_escapeChar_eq_self fun c member => escapeChar_mark (chars c member)
    rw [List.flatMap_append, itself, List.append_assoc, ← three, List.drop_left' rfl,
      List.drop_left' rfl, endsWord_written]

/-- A document is only opened at the front of a line. -/
private theorem atDocumentBoundary_written {text after : List Char} {p : Position}
    (found : p.rest = text.flatMap Text.escapeChar ++ '"' :: after) :
    p.atDocumentBoundary = (p.column == 0 && opensDocument text) := by
  rw [Position.atDocumentBoundary, atDocumentMark_written (by simp) rfl found,
    atDocumentMark_written (by simp) rfl found, ← Bool.and_or_distrib_left, ← Bool.and_or_distrib_right]
  rfl

/-! ## Readers -/

namespace Scalar

section Words

variable {fuel : Nat} {kept word : List Char} {p : Position} (noGap : ∀ c ∈ word, isGap c = false)
  (inside : p.atDocumentBoundary = false)
include noGap inside

/-- Behind the last word stands the mark that closes a string. -/
private theorem doubleFrom_lastWord {after : List Char}
    (found : p.rest = word.flatMap Text.escapeChar ++ '"' :: after) :
    doubleFrom (fuel + 1) kept p =
      some (kept ++ word, p.advance ((word.flatMap Text.escapeChar).length + 1)) := by
  have oneLine : ∀ c ∈ word, isBareBreak c = false := fun c member =>
    isBareBreak_of_not_isGap (noGap c member)
  have noBlank : ' ' ∉ word := fun member => by simpa [isGap] using noGap ' ' member
  obtain ⟨spare, taken⟩ := doubleWord?_rest (legible_escapeChar oneLine) noBlank found
  have more : p.rest ≠ [] := by simp [found]
  rw [doubleFrom, inside, taken]
  simp [-List.length_flatMap, more, doubleWord?, Nat.add_comm 1]

/-- The reader of a string goes over a word and the gap behind it. -/
private theorem exists_doubleFrom_gap {run rest : List Char} (gaps : ∀ c ∈ run, isGap c = true)
    (nonempty : run ≠ []) (starts : StartsWord rest)
    (found : p.rest = word.flatMap Text.escapeChar ++ (run ++ rest)) :
    ∃ q : Position, doubleFrom (fuel + 1) kept p =
        doubleFrom fuel (kept ++ word ++ (Gap.ofRun run).folded) q ∧
      q.rest = rest ∧ q.line = p.line + run.countP isBareBreak ∧ q.fresh = p.fresh ∧
      (q.column == 0) = Gap.endsLine run := by
  have oneLine : ∀ c ∈ word, isBareBreak c = false := fun c member =>
    isBareBreak_of_not_isGap (noGap c member)
  have noBlank : ' ' ∉ word := fun member => by simpa [isGap] using noGap ' ' member
  obtain ⟨spare, taken⟩ := doubleWord?_rest (legible_escapeChar oneLine) noBlank found
  have behind : (p.advance (word.flatMap Text.escapeChar).length).rest = run ++ rest := by
    rw [Position.rest_advance, found, List.drop_left' rfl]
  obtain ⟨q, read, left, line, fresh, column⟩ := Gap.exists_read_run nonempty gaps starts behind
  refine ⟨q, ?_, left, line, fresh, column⟩
  have more : p.rest ≠ [] := by simp [found, nonempty]
  -- Behind the word the reader finds a gap, and asks for no more characters of the word.
  have stops : doubleWord? (spare + 1) (run ++ rest) = some ([], 0, .space) := by
    obtain ⟨c, others, rfl⟩ := List.exists_cons_of_ne_nil nonempty
    rcases isGap_iff.mp (gaps c List.mem_cons_self) with rfl | rfl | rfl | rfl <;>
      simp [doubleWord?, isSpace, isBreak]
  rw [doubleFrom, inside, taken, stops]
  simp [-List.length_flatMap, more, read]

end Words

/-- The text of a string is read as what it is folded to. -/
private theorem exists_doubleFrom_written {fuel : Nat} {kept text after : List Char} {p : Position}
    (found : p.rest = text.flatMap Text.escapeChar ++ '"' :: after) (enough : text.length < fuel) :
    ∃ q : Position, doubleFrom fuel kept p =
        (if p.column == 0 && opensDocument text then none
        else (folded? text).map fun folded => (kept ++ folded, q)) ∧
      q.rest = after ∧ q.line = p.line + text.countP isBareBreak ∧ q.fresh = p.fresh := by
  -- By words: one unit of fuel for each of them with the gap behind it.
  induction fuel generalizing kept text p with
  | zero => exact absurd enough (Nat.not_lt_zero _)
  | succ fuel ih =>
    have boundary := atDocumentBoundary_written found
    cases opens : p.column == 0 && opensDocument text with
    | true =>
      refine ⟨{ p with rest := after, line := p.line + text.countP isBareBreak }, ?_, rfl, rfl, rfl⟩
      rw [doubleFrom, boundary, opens]
      rfl
    | false =>
      rw [opens] at boundary
      simp only [Bool.false_eq_true, if_false]
      obtain ⟨word, run, rest, rfl, noGap, gaps, stop, last⟩ := exists_word_run text
      have oneLine : word.countP isBareBreak = 0 := List.countP_eq_zero.mpr fun c member => by
        simp [isBareBreak_of_not_isGap (noGap c member)]
      rw [List.flatMap_append] at found
      rw [folded?_word noGap, List.countP_append, oneLine]
      by_cases ended : run = []
      · -- No gap: the word is the last one.
        obtain rfl := last ended
        subst ended
        simp only [List.append_nil, List.flatMap_nil] at found
        refine ⟨p.advance ((word.flatMap Text.escapeChar).length + 1), ?_, ?_, rfl, rfl⟩
        · rw [doubleFrom_lastWord noGap boundary found]
          simp [-List.length_flatMap, folded?, foldedFrom?, Gap.ofRun, Gap.folded]
        · rw [Position.rest_advance, found, ← List.drop_drop, List.drop_left' rfl]
          rfl
      · -- A gap is written as it is, and the reader is behind it at the front of the next word.
        have itself := flatMap_escapeChar_eq_self fun c member => escapeChar_gap (gaps c member)
        rw [List.flatMap_append, itself, List.append_assoc, List.append_assoc] at found
        have shorter : rest.length < fuel := by
          have positive := List.length_pos_iff.mpr ended
          simp only [List.length_append] at enough
          omega
        obtain ⟨q, step, left, line, fresh, column⟩ := @exists_doubleFrom_gap fuel kept word p noGap
          boundary run _ gaps ended (startsWord_written stop) found
        obtain ⟨r, read, closed, below, same⟩ :=
          @ih (kept ++ word ++ (Gap.ofRun run).folded) rest q left
          shorter
        refine ⟨r, ?_, closed, ?_, same.trans fresh⟩
        · rw [step, read, column, folded?_run gaps stop]
          split
          · rfl
          · simp [Option.map_map, Function.comp_def]
        · rw [below, line, List.countP_append]
          omega

/-- A JSON string is read as what its text is folded to. The line in which it ends tells whether
there was a line end in it. -/
private theorem exists_quoted?_quote {text after : List Char} {p : Position}
    (found : p.rest = Json.quote text ++ after) :
    ∃ q : Position, quoted? p = (folded? text).map (fun folded => (.doubleQuoted, folded, q)) ∧
      q.rest = after ∧ q.line = p.line + text.countP isBareBreak := by
  have here : p.rest = '"' :: (text.flatMap Text.escapeChar ++ '"' :: after) := by
    rw [found, Json.quote, Text.escape]
    simp
  have enough : text.length < p.rest.length + 1 := by
    have written := length_le_length_written text
    rw [here, List.length_cons, List.length_append]
    omega
  obtain ⟨q, read, left, line, -⟩ := @exists_doubleFrom_written (p.rest.length + 1) [] text after
    { p.advance 1 with fresh := false } (by simp [here]) enough
  have noMark : ¬p.at? '\'' = true := by simp [Position.at?, here]
  refine ⟨q, ?_, left, line⟩
  rw [quoted?, if_neg noMark, read]
  simp [Option.map_map, Function.comp_def]

end Scalar

namespace Reader

variable {fuel : Nat} {text after : List Char} {p : Position}

private theorem at?_quote (found : p.rest = Json.quote text ++ after) : p.at? '"' = true := by
  rw [Position.at?, found, Json.quote]
  rfl

private theorem refuses_quoted {inFlow : Bool} {margin : Nat} (mark : p.at? '"' = true)
    (refused : Scalar.quoted? p = none) : Refuses (atom inFlow margin (fuel + 1) {}) p := by
  have others : ∀ c ∈ ['*', '[', '\x7b'], p.at? c = false := by
    simp [Position.at?_of_at? mark]
  simp only [List.forall_mem_cons] at others
  rw [atom]
  apply Refuses.behind (reads_here p)
  simp only [others, mark, refused, Bool.or_true, if_true, Bool.false_eq_true, if_false]
  rfl

/-- A string is read as a node with what its text is folded to. -/
theorem reads_folded {folded : List Char} (folds : folded? text = some folded)
    (found : p.rest = Json.quote text ++ after) :
    p.AtFlowNode ∧ ∃ q : Position, q.rest = after ∧ q.line = p.line + text.countP isBareBreak ∧
      Reads (flowNode 0 (fuel + 3)) p (.scalar none .doubleQuoted (String.ofList folded)) q := by
  have mark := at?_quote found
  have atNode := Position.atFlowNode_of_at? mark (by simp)
  obtain ⟨q, read, left, line⟩ := Scalar.exists_quoted?_quote found
  rw [folds, Option.map_some] at read
  exact ⟨atNode, q, left, line,
    (continues_flowNode atNode.skip atNode).reads (reads_quoted (.inr mark) read)⟩

/-- A string that cannot be folded is refused. -/
theorem refuses_unfoldable (refused : folded? text = none)
    (found : p.rest = Json.quote text ++ after) :
    p.AtFlowNode ∧ Refuses (flowNode 0 (fuel + 3)) p := by
  have mark := at?_quote found
  have atNode := Position.atFlowNode_of_at? mark (by simp)
  obtain ⟨q, read, -⟩ := Scalar.exists_quoted?_quote found
  rw [refused, Option.map_none] at read
  exact ⟨atNode, (continues_flowNode atNode.skip atNode).refuses (refuses_quoted mark read)⟩

end Reader
end Blueprint.Yaml
