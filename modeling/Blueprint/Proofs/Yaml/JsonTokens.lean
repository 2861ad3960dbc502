import Blueprint.Proofs.Json.Grammar
import Blueprint.Proofs.Yaml.Atoms

/-!
# Tokens of JSON read as YAML

Within a flow collection line ends are blanks, so what may stand between the tokens of a JSON text
is skipped by a YAML reader too. The words of JSON are plain scalars, and its strings are scalars in
double quotation marks: every escape of JSON is one of YAML. A character that JSON does not escape
is a different matter. Some are not allowed in YAML at all, and some end a line there
(`isBareBreak`). A string that has none of these is read as it is.
-/

namespace Blueprint.Yaml

open Json (IsBlank Blank)

/-! ## Blanks -/

private theorem isSpace_or_ends {c : Char} (blank : IsBlank c) :
    isSpace c = true ∨ c = '\n' ∨ c = '\r' := by
  rcases blank with rfl | rfl | rfl | rfl
  · exact .inl rfl
  · exact .inr (.inl rfl)
  · exact .inl rfl
  · exact .inr (.inr rfl)

private theorem Position.skipWhile_front {p : Position} {test : Char → Bool}
    {front rest : List Char}
    (found : p.rest = front ++ rest) (inside : ∀ c ∈ front, test c = true)
    (stop : ∀ c ∈ rest.head?, test c = false) : p.skipWhile test = p.advance front.length := by
  have nothing : rest.takeWhile test = [] := by
    cases rest with
    | nil => rfl
    | cons c rest => exact List.takeWhile_cons_of_neg (by simp [stop c rfl])
  rw [skipWhile, found, List.takeWhile_append_of_pos inside, nothing, List.append_nil]

private theorem Position.breakLine?_return {p : Position} {rest : List Char}
    (found : p.rest = '\r' :: rest)
    (single : rest.head? ≠ some '\n') :
    p.breakLine? = some (['\n'],
      { p with rest, line := p.line + 1, column := 0, index := p.index + 1 }) := by
  cases rest with
  | nil => simp [breakLine?, found]
  | cons c rest =>
    have different : c ≠ '\n' := by simpa using single
    simp [breakLine?, found, different]

/-- A line end of JSON is a line end of YAML. Two characters may be one line end. -/
private theorem Position.exists_breakLine {p : Position} {c : Char} {blanks rest : List Char}
    (ends : c = '\n' ∨ c = '\r') (blank : Blank blanks) (starts : StartsWord rest)
    (found : p.rest = c :: (blanks ++ rest)) :
    ∃ kept q fewer, p.breakLine? = some (kept, q) ∧ q.rest = fewer ++ rest ∧ Blank fewer ∧
      fewer.length ≤ blanks.length := by
  rcases ends with rfl | rfl
  · exact ⟨_, _, blanks, breakLine?_plain (.inl rfl) found, rfl, blank, Nat.le_refl _⟩
  · by_cases pair : (blanks ++ rest).head? = some '\n'
    · -- What follows the blanks starts with no line end, so the second character is a blank too.
      cases blanks with
      | nil => exact absurd (starts '\n' pair).2 (by decide)
      | cons d fewer =>
        obtain rfl : d = '\n' := by simpa using pair
        obtain ⟨-, others⟩ := List.forall_mem_cons.mp blank
        have double : p.breakLine? = some (['\n'],
            { p with
              rest := fewer ++ rest, line := p.line + 1, column := 0, index := p.index + 2 }) := by
          simp [breakLine?, found]
        exact ⟨_, _, fewer, double, rfl, others, Nat.le_succ _⟩
    · exact ⟨_, _, blanks, breakLine?_return found pair, rfl, blank, Nat.le_refl _⟩

/-- On one line, blanks are skipped up to what is neither a blank nor a comment. -/
private theorem Position.skipFrom_line {fuel : Nat} {p : Position} {front behind : List Char}
    (found : p.rest = front ++ behind) (inside : ∀ c ∈ front, isSpace c = true)
    (stop : ∀ c ∈ behind.head?, isSpace c = false ∧ c ≠ '#') :
    skipFrom true (fuel + 1) p =
      match (p.advance front.length).breakLine? with
      | some (_, q) => skipFrom true fuel { q with fresh := q.fresh || !true }
      | none => p.advance front.length := by
  have past : p.skipWhile (fun c => c == ' ' || (c == '\t' && (true || !p.fresh))) =
      p.advance front.length := by
    apply skipWhile_front found
    · intro c member
      simpa [isSpace] using inside c member
    · intro c member
      simpa [isSpace] using (stop c member).1
  have noComment : (p.advance front.length).skipComment = p.advance front.length := by
    have here : (p.advance front.length).rest = behind := by
      rw [rest_advance, found, List.drop_left' rfl]
    rw [skipComment, if_neg]
    rw [at?, here]
    cases behind with
    | nil => simp
    | cons c behind => simpa using (stop c rfl).2
  rewrite [skipFrom, past, noComment]
  rfl

/-- Blanks are skipped up to a token, on whatever line that is. -/
private theorem Position.rest_skipFrom {fuel : Nat} {p : Position} {blanks rest : List Char}
    (blank : Blank blanks) (starts : Starts rest) (found : p.rest = blanks ++ rest)
    (enough : blanks.length < fuel) : (skipFrom true fuel p).rest = rest := by
  -- One unit of fuel for each line: blanks of the line first, then its end.
  induction fuel generalizing p blanks with
  | zero => exact absurd enough (Nat.not_lt_zero _)
  | succ fuel ih =>
    obtain ⟨front, behind, rfl, inside, stop⟩ := exists_front isSpace blanks
    have others : Blank behind := fun c member => blank c (List.mem_append_right front member)
    rw [List.append_assoc] at found
    have here : (p.advance front.length).rest = behind ++ rest := by
      rw [rest_advance, found, List.drop_left' rfl]
    cases behind with
    | nil =>
      have token : ∀ c ∈ rest.head?, isSpace c = false ∧ c ≠ '#' := by
        intro c member
        obtain ⟨others, rfl⟩ := List.head?_eq_some_iff.mp member
        exact ⟨starts.1, starts.2.2⟩
      have noBreak : (p.advance front.length).breakLine? = none := by
        apply breakLine?_eq_none
        intro c member
        rw [here] at member
        exact (starts.startsWord c member).2
      rw [skipFrom_line found inside token, noBreak]
      exact here
    | cons c behind =>
      have ends := (isSpace_or_ends (others c List.mem_cons_self)).resolve_left
        (by simp [stop c rfl])
      have lineEnd : ∀ d ∈ (c :: behind ++ rest).head?, isSpace d = false ∧ d ≠ '#' := by
        intro d member
        obtain rfl : c = d := by simpa using member
        rcases ends with rfl | rfl <;> exact ⟨rfl, by decide⟩
      obtain ⟨kept, q, fewer, broken, left, blanks, shorter⟩ := exists_breakLine ends
        (List.forall_mem_cons.mp others).2 starts.startsWord here
      have fewer : fewer.length < fuel := by
        simp only [List.length_append, List.length_cons] at enough
        omega
      rw [skipFrom_line found inside lineEnd, broken]
      exact @ih { q with fresh := q.fresh || !true } _ blanks left fewer

theorem Position.rest_skip {p : Position} {blanks rest : List Char} (blank : Blank blanks)
    (starts : Starts rest) (found : p.rest = blanks ++ rest) : (p.skip true).rest = rest := by
  apply rest_skipFrom blank starts found
  rw [found, List.length_append]
  omega

/-- The gap behind a word reaches over blanks up to a token. -/
private theorem Gap.exists_readFrom {fuel : Nat} {gap : Gap} {p : Position}
    {blanks rest : List Char}
    (blank : Blank blanks) (starts : StartsWord rest) (found : p.rest = blanks ++ rest)
    (enough : blanks.length < fuel) :
    ∃ between q, readFrom 0 fuel gap p = some (between, q) ∧ q.rest = rest := by
  -- A step takes a blank, or a line end of one or two characters.
  induction fuel generalizing gap p blanks with
  | zero => exact absurd enough (Nat.not_lt_zero _)
  | succ fuel ih =>
    cases blanks with
    | nil =>
      have here : p.rest = rest := found
      exact ⟨gap, p, readFrom_word (here ▸ starts), here⟩
    | cons c blanks =>
      obtain ⟨isBlank, others⟩ := List.forall_mem_cons.mp blank
      have shorter : blanks.length < fuel := Nat.lt_of_succ_lt_succ enough
      rw [List.cons_append] at found
      rw [readFrom, found]
      rcases isSpace_or_ends isBlank with isSpace | ends
      · have next : (p.advance 1).rest = blanks ++ rest := by simp [found]
        simp only [isSpace, if_true, Nat.not_lt_zero, and_false, if_false]
        split
        · exact ih others next shorter
        · exact ih others next shorter
      · obtain ⟨kept, q, fewer, broken, left, blanks, less⟩ :=
          Position.exists_breakLine ends others starts found
        have noSpace : isSpace c = false := by
          rcases ends with rfl | rfl <;> rfl
        simp only [noSpace, broken, Bool.false_eq_true, if_false]
        split
        · exact ih blanks left (by omega)
        · exact ih blanks left (by omega)

private theorem Gap.exists_read {gap : Gap} {p : Position} {blanks rest : List Char}
    (blank : Blank blanks)
    (starts : StartsWord rest) (found : p.rest = blanks ++ rest) :
    ∃ between q, read 0 gap p = some (between, q) ∧ q.rest = rest := by
  apply exists_readFrom blank starts found
  rw [found, List.length_append]
  omega

/-! ## Words -/

/-- A word of letters, digits and dashes that is no mark. -/
structure FlowWord (word : List Char) : Prop where
  nonempty : word ≠ []
  chars : ∀ c ∈ word, isWordChar c = true
  dash : ∀ rest, word = '-' :: rest → rest ≠ [] ∧ rest.head? ≠ some '-'

private theorem ne_of_isWordChar {c d : Char} (isWord : isWordChar c = true)
    (noWord : isWordChar d = false) :
    c ≠ d := by
  rintro rfl
  rw [isWord] at noWord
  contradiction

/-- A character of a word means nothing else. -/
private theorem ordinary_of_isWordChar {c : Char} (isWord : isWordChar c = true) :
    isSpace c = false ∧ isBreak c = false ∧ Scalar.isFlowIndicator c = false ∧ c ≠ ':' ∧
      ∀ d ∈ '?' :: '.' :: Scalar.indicators, c ≠ d := by
  have others : ∀ d ∈ [' ', '\t', '\n', '\r', '\x85', '\u2028', '\u2029', ',', '[', ']', '\x7b', '\x7d',
      ':'] ++ '?' :: '.' :: Scalar.indicators, c ≠ d := by
    intro d member
    have noWord : ([' ', '\t', '\n', '\r', '\x85', '\u2028', '\u2029', ',', '[', ']', '\x7b', '\x7d',
        ':'] ++ '?' :: '.' :: Scalar.indicators).all (fun d => !isWordChar d) = true := by decide
    exact ne_of_isWordChar isWord (by simpa using List.all_eq_true.mp noWord d member)
  rw [List.forall_mem_append] at others
  obtain ⟨marks, indicators⟩ := others
  simp only [List.forall_mem_cons] at marks
  refine ⟨?_, ?_, ?_, ?_, indicators⟩
  · simp [isSpace, marks]
  · simp [isBreak, marks]
  · simp [Scalar.isFlowIndicator, marks]
  · simp [marks]

/-- What ends an item or an entry of a flow collection. -/
def Closes (rest : List Char) : Prop :=
  ∃ c tail, rest = c :: tail ∧ c ∈ [',', ']', '\x7d']

theorem Closes.starts {rest : List Char} (closes : Closes rest) : Starts rest := by
  obtain ⟨c, tail, rfl, mark⟩ := closes
  simp only [List.mem_cons, List.not_mem_nil, or_false] at mark
  rcases mark with rfl | rfl | rfl <;> exact ⟨rfl, rfl, by decide⟩

namespace FlowWord

variable {word after : List Char} {p : Position}

private theorem plainWord?_append (chars : ∀ c ∈ word, isWordChar c = true) (rest : List Char) :
    Scalar.plainWord? true (word ++ rest) = (Scalar.plainWord? true rest).map (word ++ ·) := by
  induction word with
  | nil => simp
  | cons c word ih =>
    obtain ⟨isWord, others⟩ := List.forall_mem_cons.mp chars
    obtain ⟨noSpace, noBreak, noIndicator, noColon, -⟩ := ordinary_of_isWordChar isWord
    rw [List.cons_append, Scalar.plainWord?, ih others]
    simp only [noSpace, noBreak, noIndicator, beq_eq_false_iff_ne.mpr noColon, Bool.or_self,
      Bool.false_and, Bool.and_false, Bool.false_eq_true, if_false]
    rw [Option.map_map]
    rfl

/-- Behind a word the reader stops at a blank and at a mark of the collection. -/
private theorem plainWord?_eq_nil {blanks rest : List Char} (blank : Blank blanks)
    (closes : Closes rest) :
    Scalar.plainWord? true (blanks ++ rest) = some [] := by
  cases blanks with
  | nil =>
    obtain ⟨c, tail, rfl, mark⟩ := closes
    simp only [List.mem_cons, List.not_mem_nil, or_false] at mark
    rcases mark with rfl | rfl | rfl <;> rfl
  | cons c blanks =>
    rcases blank c List.mem_cons_self with rfl | rfl | rfl | rfl <;> rfl

variable (isWord : FlowWord word) (found : p.rest = word ++ after)
include isWord found

private theorem atDocumentBoundary : p.atDocumentBoundary = false := by
  obtain ⟨c, rest, rfl⟩ := List.exists_cons_of_ne_nil isWord.nonempty
  have noDot : '.' ≠ c :=
    Ne.symm ((ordinary_of_isWordChar (isWord.chars c List.mem_cons_self)).2.2.2.2 '.' (by simp))
  have noDots : ['.', '.', '.'].isPrefixOf p.rest = false := by
    simp [found, List.isPrefixOf, noDot]
  have noDashes : ['-', '-', '-'].isPrefixOf p.rest = false := by
    rw [found]
    by_cases isDash : '-' = c
    · -- A dash in front is the sign of a number, so a digit follows it.
      subst isDash
      obtain ⟨nonempty, single⟩ := isWord.dash rest rfl
      obtain ⟨d, rest, rfl⟩ := List.exists_cons_of_ne_nil nonempty
      have different : '-' ≠ d := by
        rintro rfl
        exact single rfl
      simp [List.isPrefixOf, different]
    · simp [List.isPrefixOf, isDash]
  simp only [Position.atDocumentBoundary, Position.atDocumentMark, noDashes, noDots, Bool.and_false,
    Bool.false_and, Bool.or_self]

private theorem at?_eq_false {c : Char} (other : c ∈ '?' :: '.' :: Scalar.indicators) :
    p.at? c = false := by
  obtain ⟨d, rest, rfl⟩ := List.exists_cons_of_ne_nil isWord.nonempty
  have different := (ordinary_of_isWordChar (isWord.chars d List.mem_cons_self)).2.2.2.2 c other
  simpa [Position.at?, found] using different

theorem atFlowNode : p.AtFlowNode where
  starts := by
    obtain ⟨c, rest, rfl⟩ := List.exists_cons_of_ne_nil isWord.nonempty
    obtain ⟨noSpace, noBreak, -, -, others⟩ :=
      ordinary_of_isWordChar (isWord.chars c List.mem_cons_self)
    rw [found]
    exact ⟨noSpace, noBreak, others '#' (by decide)⟩
  notAtEnd := by
    simp [Position.atDocumentEnd, isWord.atDocumentBoundary found, found, isWord.nonempty]
  noMarks := by
    intro c mark
    have known :
        ['&', '!', '?', ',', ']', '\x7d'].all (· ∈ '?' :: '.' :: Scalar.indicators) = true := by
      decide
    exact isWord.at?_eq_false found (of_decide_eq_true (List.all_eq_true.mp known c mark))

private theorem startsPlain : Scalar.startsPlain true p = true := by
  obtain ⟨c, rest, rfl⟩ := List.exists_cons_of_ne_nil isWord.nonempty
  obtain ⟨noSpace, noBreak, noIndicator, noColon, others⟩ :=
    ordinary_of_isWordChar (isWord.chars c List.mem_cons_self)
  rw [Scalar.startsPlain, found]
  by_cases isDash : c = '-'
  · subst isDash
    obtain ⟨nonempty, -⟩ := isWord.dash rest rfl
    obtain ⟨d, rest, rfl⟩ := List.exists_cons_of_ne_nil nonempty
    obtain ⟨noSpace, noBreak, -⟩ := ordinary_of_isWordChar (isWord.chars d (by simp))
    simp [endsWord, noSpace, noBreak]
  · simp only [Scalar.indicators, List.forall_mem_cons] at others
    simp [isDash, noSpace, noBreak, noIndicator, noColon, others]

end FlowWord

namespace Scalar

/-- A mark of the collection ends a plain scalar, whatever was read of it. -/
private theorem plainFrom_closes {fuel : Nat} {kept : List Char} {gap : Gap} {p : Position}
    (closes : Closes p.rest) :
    plainFrom true 0 (fuel + 1) kept gap p =
      some (kept, { p with fresh := p.fresh || gap.broken }) := by
  have noWord : plainWord? true p.rest = some [] := FlowWord.plainWord?_eq_nil Json.blank_nil closes
  rw [plainFrom, noWord]
  split <;> rfl

/-- The reader of a plain scalar takes a word, and goes on where a blank follows. -/
private theorem plainFrom_flowWord {fuel : Nat} {word blanks rest : List Char} {p : Position}
    (isWord : FlowWord word) (blank : Blank blanks) (closes : Closes rest)
    (found : p.rest = word ++ (blanks ++ rest)) :
    plainFrom true 0 (fuel + 1) [] {} p =
      if endsWord (blanks ++ rest) then
        (Gap.read 0 {} (p.advance word.length)).bind fun (gap, q) => plainFrom true 0 fuel word gap q
      else some (word, p.advance word.length) := by
  have inside := isWord.atDocumentBoundary found
  have noComment := isWord.at?_eq_false found (c := '#') (by decide)
  have taken : plainWord? true p.rest = some word := by
    rw [found, FlowWord.plainWord?_append isWord.chars, FlowWord.plainWord?_eq_nil blank closes]
    simp
  have behind : (p.advance word.length).rest = blanks ++ rest := by
    rw [Position.rest_advance, found, List.drop_left' rfl]
  have more : (blanks ++ rest).isEmpty = false := by
    obtain ⟨c, tail, rfl, -⟩ := closes
    simp
  obtain ⟨c, others, rfl⟩ := List.exists_cons_of_ne_nil isWord.nonempty
  simp only [plainFrom, inside, noComment, taken, behind, more, Bool.or_self, Bool.false_or,
    Bool.not_true, Bool.false_and, Bool.false_eq_true, if_false]
  cases endsWord (blanks ++ rest) with
  | false => rfl
  | true => cases Gap.read 0 {} (p.advance (c :: others).length) <;> rfl

/-- A word is read as a plain scalar, up to the mark that ends its item or entry. -/
private theorem plain?_word {word blanks rest : List Char} {p : Position} (isWord : FlowWord word)
    (blank : Blank blanks) (closes : Closes rest) (found : p.rest = word ++ (blanks ++ rest)) :
    ∃ q, plain? true 0 p = some (word, q) ∧ (q.skip true).rest = rest := by
  obtain ⟨start, same⟩ : ∃ start : Position, start = { p with fresh := false } := ⟨_, rfl⟩
  have here : start.rest = word ++ (blanks ++ rest) := by rw [same, found]
  have behind : (start.advance word.length).rest = blanks ++ rest := by
    rw [Position.rest_advance, here, List.drop_left' rfl]
  obtain ⟨fuel, enough⟩ : ∃ fuel, p.rest.length = fuel + 1 := by
    obtain ⟨c, others, rfl⟩ := List.exists_cons_of_ne_nil isWord.nonempty
    exact ⟨_, congrArg List.length found⟩
  rw [plain?, ← same, enough, plainFrom_flowWord isWord blank closes here]
  split
  · -- The gap ends in front of the mark, where the scalar ends too.
    obtain ⟨gap, q, read, left⟩ := @Gap.exists_read {} _ _ _ blank closes.starts.startsWord behind
    rw [read, Option.bind_some]
    exact ⟨_, plainFrom_closes (left ▸ closes), Position.rest_skip Json.blank_nil closes.starts left⟩
  · exact ⟨_, rfl, Position.rest_skip blank closes.starts behind⟩

end Scalar

theorem flowWord_null : FlowWord "null".toList := by
  refine ⟨by decide, fun c member => ?_, nofun⟩
  exact List.all_eq_true.mp (show "null".toList.all isWordChar = true by decide) c member

theorem flowWord_bool (b : Bool) : FlowWord (if b then "true" else "false").toList := by
  cases b
  · refine ⟨by decide, fun c member => ?_, nofun⟩
    exact List.all_eq_true.mp (show "false".toList.all isWordChar = true by decide) c member
  · refine ⟨by decide, fun c member => ?_, nofun⟩
    exact List.all_eq_true.mp (show "true".toList.all isWordChar = true by decide) c member

private theorem isWordChar_of_isDigit {c : Char} (isDigit : c.isDigit = true) :
    isWordChar c = true := by
  simp [isWordChar, Char.isAlphanum, isDigit]

/-- Digits are a word, with a minus sign in front or without. -/
theorem flowWord_whole (n : Whole) : FlowWord n.toText := by
  have isDigit : ∀ c ∈ Text.decimal n.value.natAbs, c.isDigit = true := fun _ =>
    Json.isDigit_of_mem_decimal
  obtain ⟨first, others, written⟩ := Json.exists_decimal n.value.natAbs
  have noDash : first ≠ '-' := by
    rintro rfl
    exact absurd (isDigit '-' (by simp [written])) (by decide)
  rw [Whole.toText]
  split
  · constructor
    · exact List.cons_ne_nil _ _
    · intro c member
      rcases List.mem_cons.mp member with rfl | member
      · rfl
      · exact isWordChar_of_isDigit (isDigit c member)
    · intro rest same
      obtain rfl : Text.decimal n.value.natAbs = rest := (List.cons.inj same).2
      simp [written, noDash]
  · constructor
    · simp [written]
    · intro c member
      exact isWordChar_of_isDigit (isDigit c member)
    · intro rest same
      rw [written] at same
      exact absurd (List.cons.inj same).1 noDash

/-! ## Strings -/

/-- The line ends of YAML that JSON leaves as they are. -/
def isBareBreak (c : Char) : Bool :=
  c == '\x85' || c == '\u2028' || c == '\u2029'

theorem isBareBreak_iff {c : Char} :
    isBareBreak c = true ↔ c = '\x85' ∨ c = '\u2028' ∨ c = '\u2029' := by
  simp [isBareBreak, or_assoc]

/-- JSON escapes the line ends that are controls. -/
private theorem isBareBreak_eq {c : Char} (visible : ¬c.toNat < 0x20) :
    isBareBreak c = isBreak c := by
  have noFeed : (c == '\n') = false := beq_eq_false_iff_ne.mpr fun same => visible (by simp [same])
  have noReturn : (c == '\r') = false := beq_eq_false_iff_ne.mpr fun same => visible (by simp [same])
  simp [isBareBreak, isBreak, noFeed, noReturn]

/-- How JSON writes a character, as YAML reads it. -/
inductive JsonEscape (c : Char) : List Char → Prop
  | self (control : ¬c.toNat < 0x20) (noQuote : c ≠ '"') (noBackslash : c ≠ '\\') : JsonEscape c [c]
  | letter {letter : Char} (noBreak : isBreak letter = false) (allowed : isAllowed letter = true)
      (meant : Scalar.escapeOf? letter = some c) : JsonEscape c ['\\', letter]
  | number (control : c.toNat < 0x20) : JsonEscape c ['\\', 'u', '0', '0',
      if c.toNat < 0x10 then '0' else '1', Nat.digitChar (c.toNat % 16)]

theorem jsonEscape_escapeChar (c : Char) : JsonEscape c (Text.escapeChar c) := by
  by_cases named : c ∈ ['"', '\\', '\n', '\r', '\t', '\x08', '\x0c']
  · simp only [List.mem_cons, List.not_mem_nil, or_false] at named
    rcases named with rfl | rfl | rfl | rfl | rfl | rfl | rfl <;> exact .letter rfl rfl rfl
  · simp only [List.mem_cons, List.not_mem_nil, or_false, not_or] at named
    obtain ⟨noQuote, noBackslash, others⟩ := named
    simp only [Text.escapeChar, noQuote, noBackslash, others, if_false]
    split
    · rename_i control
      exact .number control
    · rename_i control
      exact .self control noQuote noBackslash

private theorem isSpace_eq_false {c : Char} (noBlank : c ≠ ' ') (control : ¬c.toNat < 0x20) :
    isSpace c = false := by
  have noTab : c ≠ '\t' := by
    rintro rfl
    exact control (by decide)
  simp [isSpace, noBlank, noTab]

/-- What JSON writes for a text on one line is legible. -/
theorem legible_escapeChar {text : List Char} (oneLine : ∀ c ∈ text, isBareBreak c = false) :
    Scalar.Legible Text.escapeChar text where
  blank := rfl
  starts c member noBlank := by
    -- A character that is not escaped is no line end, since the text is on one line.
    have escape := jsonEscape_escapeChar c
    generalize Text.escapeChar c = written at escape
    cases escape with
    | self control =>
      have noBreak := isBareBreak_eq control ▸ oneLine c member
      exact ⟨c, [], rfl, isSpace_eq_false noBlank control, noBreak⟩
    | letter => exact ⟨_, _, rfl, rfl, rfl⟩
    | number => exact ⟨_, _, rfl, rfl, rfl⟩
  step c member noBlank fuel rest := by
    have escape := jsonEscape_escapeChar c
    generalize Text.escapeChar c = written at escape ⊢
    cases escape with
    | self control noQuote noBackslash =>
      have noBreak := isBareBreak_eq control ▸ oneLine c member
      exact Scalar.doubleWord?_self (isSpace_eq_false noBlank control) noBreak noQuote noBackslash rest
    | letter noBreak _ meant => exact Scalar.doubleWord?_letter noBreak meant rest
    | number control =>
      have value := Json.natOfDigits?_control c.toNat control
      exact Scalar.doubleWord?_number rfl rfl rfl value rest

/-- A string of JSON on one line is read as a scalar in double quotation marks. -/
private theorem Scalar.quoted?_quote {text after : List Char} {p : Position}
    (oneLine : ∀ c ∈ text, isBareBreak c = false) (found : p.rest = Json.quote text ++ after) :
    quoted? p = some (.doubleQuoted, text,
      { p.advance (Json.quote text).length with fresh := false }) := by
  have here : p.rest = '"' :: (text.flatMap Text.escapeChar ++ '"' :: after) := by
    rw [found, Json.quote, Text.escape]
    simp
  have long : (Json.quote text).length = (text.flatMap Text.escapeChar).length + 2 := by
    simp [-List.length_flatMap, Json.quote, Text.escape]
  rw [quoted?_of_legible (legible_escapeChar oneLine) here, long]

/-! ## Readers -/

theorem Position.atFlowNode_of_at? {p : Position} {c : Char} (mark : p.at? c = true)
    (opening : c ∈ ['"', '[', '\x7b']) : p.AtFlowNode := by
  obtain ⟨rest, found⟩ : ∃ rest, p.rest = c :: rest := by
    cases here : p.rest with
    | nil => simp [at?, here] at mark
    | cons d rest => exact ⟨rest, by simpa [at?, here] using mark⟩
  simp only [List.mem_cons, List.not_mem_nil, or_false] at opening
  constructor
  · rw [found]
    rcases opening with rfl | rfl | rfl <;> exact ⟨rfl, rfl, by decide⟩
  · rcases opening with rfl | rfl | rfl <;>
      simp [atDocumentEnd, atDocumentBoundary, atDocumentMark, found, List.isPrefixOf]
  · rcases opening with rfl | rfl | rfl <;> simp [at?, found]

namespace Reader

variable {fuel : Nat} {p : Position}

/-- A string on one line is read as a node, up to what follows directly. -/
theorem reads_quote {text after : List Char} (oneLine : ∀ c ∈ text, isBareBreak c = false)
    (found : p.rest = Json.quote text ++ after) :
    p.AtFlowNode ∧ Reads (flowNode 0 (fuel + 3)) p (.scalar none .doubleQuoted (String.ofList text))
      { p.advance (Json.quote text).length with fresh := false } := by
  have mark : p.at? '"' = true := by
    rw [Position.at?, found, Json.quote]
    rfl
  have atNode := Position.atFlowNode_of_at? mark (by simp)
  have read := Scalar.quoted?_quote oneLine found
  exact ⟨atNode, (continues_flowNode atNode.skip atNode).reads (reads_quoted (.inr mark) read)⟩

/-- A word is read as a node, up to the mark that ends its item or entry. -/
theorem reads_word {word blanks rest : List Char} (isWord : FlowWord word) (blank : Blank blanks)
    (closes : Closes rest) (found : p.rest = word ++ (blanks ++ rest)) :
    p.AtFlowNode ∧ ∃ q, Reads (flowNode 0 (fuel + 3)) p (.scalar none .plain (String.ofList word)) q ∧
      (q.skip true).rest = rest := by
  have atNode := isWord.atFlowNode found
  obtain ⟨q, read, left⟩ := Scalar.plain?_word isWord blank closes found
  have noMark : ∀ c ∈ Scalar.indicators, p.at? c = false := fun c member =>
    isWord.at?_eq_false found (by simp [member])
  exact ⟨atNode, q, (continues_flowNode atNode.skip atNode).reads
    (reads_plain noMark (isWord.startsPlain found) read), left⟩

end Reader
end Blueprint.Yaml
