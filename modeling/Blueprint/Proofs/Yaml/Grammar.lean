import Blueprint.Proofs.Yaml.Characters

/-!
# Values read back

The tree of a value is read from what is written for it. Behind a key or a mark stands a scalar, an
empty collection or the first line of a block, and the reader is left at what follows further down
and further left.
-/

namespace Blueprint.Yaml

open Printer (blanks nextLine)

/-! ## What follows -/

/-- What stands at the start of a line below a part of a document, and its column. -/
structure Following where
  column : Nat
  rest : List Char

namespace Following

def text (f : Following) : List Char :=
  blanks f.column ++ f.rest

/-- What follows with further lines of a block in front of it. -/
def before (f : Following) (column : Nat) (lines : List Char) : Following :=
  if lines.isEmpty then f else ⟨column, nextLine lines f.text⟩

/-- What follows a block in a column does not belong to it. -/
structure Outside (f : Following) (column : Nat) : Prop where
  token : Token f.rest
  left : f.column ≤ column
  ends : f.rest = [] ∨ f.column < column

/-- What follows the value of a key in a column is no item of a sequence in that column. -/
structure Beneath (f : Following) (column : Nat) : Prop where
  token : Token f.rest
  left : f.column ≤ column
  noDash : f.column = column → ∀ p : Position, p.rest = f.rest → p.atMark '-' = false

private theorem Outside.beneath {f : Following} {column : Nat} (outside : f.Outside column) :
    f.Beneath column where
  token := outside.token
  left := outside.left
  noDash same p found := by
    rcases outside.ends with nothing | left
    · simp [Position.atMark, found, nothing]
    · omega

private theorem Beneath.ends_at {f : Following} {column line : Nat} {p : Position}
    (beneath : f.Beneath column)
    (below : p.Below line f.column f.rest) : (p.skip false).atDocumentEnd = true ∨
      (p.skip false).column ≠ column ∨ (p.skip false).atMark '-' = false := by
  by_cases same : f.column = column
  · exact .inr (.inr (beneath.noDash same _ below.rest))
  · exact .inr (.inl (below.column ▸ same))

/-- A block ends where something comes that lies outside of it. -/
private theorem Outside.ends_at {f : Following} {column line : Nat} {p : Position}
    (outside : f.Outside column)
    (below : p.Below line f.column f.rest) :
    (p.skip false).atDocumentEnd = true ∨ (p.skip false).column < column := by
  -- At the end of the text every reader stops, else the column tells.
  rcases outside.ends with nothing | left
  · exact .inl (by simp [Position.atDocumentEnd, below.rest, nothing])
  · exact .inr (below.column ▸ left)

end Following

/-! ## What is written for blocks -/

open Printer (afterKey afterMark entryText scalarText)

private theorem scalarText_ne_nil (indent : Nat) (s : String) : scalarText indent s ≠ [] :=
  (spelling_scalarText indent s).nonempty

private theorem items_ne_nil (column : Nat) (item : Value) (items : List Value) :
    Printer.items column (item :: items) ≠ [] := by
  cases items with
  | nil => simp [Printer.items]
  | cons => simp [Printer.items, nextLine_ne_nil]

private theorem entryText_ne_nil (column : Nat) (key : String) (behindKey behindMark : List Char) :
    entryText column key behindKey behindMark ≠ [] := by
  rw [entryText]
  split
  · simp
  · exact nextLine_ne_nil (by simp) _

private theorem fields_ne_nil (column : Nat) (field : String × Value)
    (fields : List (String × Value)) :
    Printer.fields column (field :: fields) ≠ [] := by
  cases fields with
  | nil => exact entryText_ne_nil _ _ _ _
  | cons => exact nextLine_ne_nil (entryText_ne_nil _ _ _ _) _

private theorem afterMark_ne_nil (column : Nat) {value : Value} (floatFree : value.FloatFree) :
    afterMark column value ≠ [] := by
  cases value with
  | null => exact (spelling_null 0).nonempty
  | bool b => exact (spelling_bool 0 b).nonempty
  | number n =>
    cases n with
    | whole n => exact (spelling_whole 0 n).nonempty
    | real x => exact floatFree.elim
  | string s => exact scalarText_ne_nil column s
  | array items =>
    cases items with
    | nil => exact List.cons_ne_nil _ _
    | cons item items => exact items_ne_nil column item items
  | object fields =>
    cases fields with
    | nil => exact List.cons_ne_nil _ _
    | cons field fields => exact fields_ne_nil column field fields

/-- Behind a key comes a blank or the end of the line. -/
private theorem exists_afterKey (column : Nat) (value : Value) :
    ∃ c rest, afterKey column value = c :: rest ∧ (isSpace c || isBreak c) = true := by
  rcases atom_or_block value with isAtom | ⟨item, items, rfl⟩ | ⟨field, fields, rfl⟩
  · exact ⟨' ', _, afterKey_atom isAtom, rfl⟩
  · exact ⟨'\n', _, rfl, rfl⟩
  · exact ⟨'\n', _, rfl, rfl⟩

section Following

variable {column : Nat} {f : Following}

private theorem nextLine_items (item : Value) (items : List Value) (floatFree : item.FloatFree) :
    nextLine (Printer.items column (item :: items)) f.text =
      '-' :: ' ' :: nextLine (afterMark (column + 2) item)
        (f.before column (Printer.items column items)).text := by
  -- The dash and its blank are part of the line of the item.
  have mark (after : List Char) : nextLine ('-' :: ' ' :: afterMark (column + 2) item) after =
      '-' :: ' ' :: nextLine (afterMark (column + 2) item) after :=
    nextLine_append ['-', ' '] (afterMark_ne_nil _ floatFree) after
  cases items with
  | nil => exact mark f.text
  | cons next items =>
    have nonempty := items_ne_nil column next items
    rw [items_cons_cons, nextLine_nextLine _ (by simp [nonempty]), mark, nextLine_append _ nonempty]
    simp [Following.before, nonempty, Following.text]

theorem nextLine_fields (key : String) (value : Value) (fields : List (String × Value)) :
    nextLine (Printer.fields column ((key, value) :: fields)) f.text =
      nextLine (entryText column key (afterKey column value) (afterMark (column + 2) value))
        (f.before column (Printer.fields column fields)).text := by
  cases fields with
  | nil => rfl
  | cons next fields =>
    have nonempty := fields_ne_nil column next fields
    rw [fields_cons_cons, nextLine_nextLine _ (by simp [nonempty]), nextLine_append _ nonempty]
    simp [Following.before, nonempty, Following.text]

theorem nextLine_entryText_simple {key : String} {behindKey behindMark after : List Char}
    (simple : Printer.isSimpleKey key = true) (nonempty : behindKey ≠ []) :
    nextLine (entryText column key behindKey behindMark) after =
      scalarText (column + 2) key ++ ':' :: nextLine behindKey after := by
  rw [entryText, if_pos simple]
  have split := nextLine_append (scalarText (column + 2) key ++ [':']) nonempty after
  simpa using split

private theorem nextLine_entryText_question {key : String} {behindKey behindMark after : List Char}
    (long : Printer.isSimpleKey key = false) (nonempty : behindMark ≠ []) :
    nextLine (entryText column key behindKey behindMark) after =
      '?' :: ' ' :: nextLine (scalarText (column + 2) key)
        (blanks column ++ ':' :: ' ' :: nextLine behindMark after) := by
  have colon := nextLine_append (blanks column ++ [':', ' ']) nonempty after
  have question := nextLine_append ['?', ' '] (scalarText_ne_nil (column + 2) key)
    (blanks column ++ ':' :: ' ' :: nextLine behindMark after)
  rw [entryText, if_neg (by simp [long]), nextLine_nextLine _ (by simp)]
  simp only [List.append_assoc, List.cons_append, List.nil_append] at colon question
  rw [colon, question]

end Following

/-! ## Blocks -/

namespace Reader

variable {margin fuel column : Nat} {dashes : Bool} {f : Following} {p start : Position}

/-- A simple key is read in front of its colon. -/
private theorem reads_simpleKey {key : String} {value : List Char}
    (simple : Printer.isSimpleKey key = true) (margin fuel : Nat)
    (found : p.rest = scalarText (column + 2) key ++ ':' :: value) (ends : endsWord value = true)
    (right : margin ≤ p.column + 1) :
    p.AtAtom ∧ (p.at? '|' = false ∧ p.at? '>' = false) ∧
      ∃ q, Reads (atom false margin (fuel + 1) {}) p (.scalar none (textStyle key) key) q ∧
        q.rest = ':' :: value ∧ p.column ≤ q.column ∧ q.line = p.line ∧ isKeyAt p q = true := by
  have oneLine : ∀ c ∈ key.toList, isBreak c = false := by
    have oneLine := (Bool.and_eq_true_iff.mp simple).1
    simpa [Printer.isMultiline, isLineEnd_eq_isBreak] using oneLine
  obtain ⟨atAtom, noBlock, read⟩ := (spelling_scalarText (column + 2) key).reads_key fuel oneLine found
    ends (Nat.succ_ne_zero _) right
  rw [String.ofList_toList] at read
  have short := length_simpleKey (column + 2) simple
  refine ⟨atAtom, noBlock, _, read, ?_, Nat.le_add_right _ _, rfl, ?_⟩
  · simp [found]
  · simpa [isKeyAt] using short

/-- An atom behind a mark. -/
private theorem reads_marked_atom {value : Value} (isAtom : IsAtom value)
    (floatFree : value.FloatFree)
    (skipped : p.skip false = start)
    (found : start.rest = nextLine (afterMark (margin + 1) value) f.text)
    (here : start.column = margin + 1) (token : Token f.rest) (left : f.column < margin)
    (enough : 3 ≤ fuel) :
    ∃ q, Reads (blockNode margin dashes fuel {}) p (Node.ofValue value) q ∧
      q.Below start.line f.column f.rest := by
  -- The node, the atom and a flow collection in it each take one unit of fuel.
  obtain ⟨fuel, rfl⟩ : ∃ n, fuel = n + 3 := ⟨fuel - 3, by omega⟩
  obtain ⟨atAtom, q, read, below⟩ := @reads_atom margin fuel f.column f.rest start value isAtom
    floatFree found (by omega) left token.starts (by omega)
  exact reads_blockNode_atom skipped atAtom (by omega) read below token.starts

/-- An atom behind the colon of a key. -/
private theorem reads_keyed_atom {value : Value} (isAtom : IsAtom value)
    (floatFree : value.FloatFree)
    (found : p.rest = nextLine (afterKey column value) f.text) (right : column < p.column)
    (beneath : f.Beneath column) (enough : 3 ≤ fuel) :
    ∃ q, Reads (blockNode (column + 1) true fuel {}) p (Node.ofValue value) q ∧
      q.Below p.line f.column f.rest := by
  obtain ⟨fuel, rfl⟩ : ∃ n, fuel = n + 3 := ⟨fuel - 3, by omega⟩
  have behind : p.rest = blanks 1 ++ nextLine (afterMark (column + 2) value) f.text := by
    rw [found, afterKey_atom isAtom]
    exact nextLine_append [' '] (afterMark_ne_nil _ floatFree) _
  have here : (p.advance 1).rest = nextLine (afterMark (column + 2) value) f.text := by
    simp [behind, blanks]
  obtain ⟨atAtom, q, read, below⟩ := @reads_atom (column + 1) fuel f.column f.rest (p.advance 1) value
    isAtom floatFree here (by omega) (Nat.lt_succ_of_le beneath.left) beneath.token.starts
    (by simp; omega)
  have skipped : p.skip false = p.advance 1 := Position.skip_blanks behind (here ▸ atAtom.starts)
  have inside : column + 1 ≤ (p.advance 1).column := by
    simp
    omega
  show ∃ q, Reads _ p _ q ∧ q.Below (p.advance 1).line f.column f.rest
  exact reads_blockNode_atom skipped atAtom inside read below beneath.token.starts

/-- A mark of a block has a blank behind it. -/
private theorem atMark_of_blank {c : Char} {rest : List Char} (found : p.rest = c :: ' ' :: rest) :
    p.atMark c = true := by
  simp [Position.atMark, found, endsWord, isSpace]

private theorem atMark_of_other {c d : Char} {rest : List Char} (found : p.rest = c :: rest)
    (different : c ≠ d) : p.atMark d = false := by
  simp [Position.atMark, found, different]

private theorem token_of_blank {c : Char} (mark : c ∈ ['-', '?', ':']) (rest : List Char) :
    Token (c :: ' ' :: rest) := by
  simp only [List.mem_cons, List.not_mem_nil, or_false] at mark
  refine ⟨?_, fun p found => ?_⟩
  · rcases mark with rfl | rfl | rfl <;> exact ⟨rfl, rfl, by decide⟩
  · rcases mark with rfl | rfl | rfl <;>
      simp [Position.atDocumentBoundary, Position.atDocumentMark, found, List.isPrefixOf]

private theorem notAtEnd_of_token (token : Token p.rest) (nonempty : p.rest ≠ []) :
    p.atDocumentEnd = false := by
  simp [Position.atDocumentEnd, nonempty, token.inside p rfl]

private theorem skip_of_token (token : Token p.rest) : p.skip false = p :=
  Position.skip_of_starts token.starts

private theorem afterKey_ne_nil (column : Nat) (value : Value) : afterKey column value ≠ [] := by
  obtain ⟨c, rest, behind, -⟩ := exists_afterKey column value
  simp [behind]

private theorem endsWord_afterKey (value : Value) :
    endsWord (nextLine (afterKey column value) f.text) = true := by
  obtain ⟨c, rest, behind, ends⟩ := exists_afterKey column value
  obtain ⟨between, split⟩ := exists_nextLine (afterKey column value)
  rw [split, behind]
  exact ends

private theorem token_nil : Token [] :=
  ⟨trivial, fun p found => by
    simp [Position.atDocumentBoundary, Position.atDocumentMark, found]⟩

/-- A mapping starts with a token that is neither a dash nor the mark of a directive. -/
private theorem token_fields (key : String) (value : Value) (fields : List (String × Value))
    (floatFree : value.FloatFree) :
    Token (nextLine (Printer.fields column ((key, value) :: fields)) f.text) ∧
      ∀ p : Position, p.rest = nextLine (Printer.fields column ((key, value) :: fields)) f.text →
        p.atMark '-' = false ∧ p.at? '%' = false := by
  rw [nextLine_fields]
  generalize f.before column (Printer.fields column fields) = g
  cases simple : Printer.isSimpleKey key with
  | true =>
    have endsWord := @endsWord_afterKey column g value
    rw [nextLine_entryText_simple simple (afterKey_ne_nil column value)]
    have atAtom (p : Position) (found : p.rest = scalarText (column + 2) key ++
        ':' :: nextLine (afterKey column value) g.text) : p.AtAtom :=
      -- What a token is only depends on the text, so any reading of the key shows it.
      (reads_simpleKey simple 0 0 found endsWord (Nat.zero_le _)).1
    exact ⟨⟨(atAtom ⟨_, 0, 0, 0, true⟩ rfl).starts, fun p found => (atAtom p found).inside⟩,
      fun p found => ⟨(atAtom p found).noDash, (atAtom p found).plainMarks '%' (by simp)⟩⟩
  | false =>
    rw [nextLine_entryText_question simple (afterMark_ne_nil _ floatFree)]
    exact ⟨token_of_blank (by decide) _, fun p found =>
      ⟨atMark_of_other found (by decide), by simp [Position.at?, found]⟩⟩

private theorem token_items (item : Value) (items : List Value) (floatFree : item.FloatFree) :
    Token (nextLine (Printer.items column (item :: items)) f.text) := by
  rw [nextLine_items item items floatFree]
  exact token_of_blank (by decide) _

private theorem starts_afterMark_atom {value : Value} (isAtom : IsAtom value)
    (floatFree : value.FloatFree)
    (token : Token f.rest) (left : f.column < margin) :
    Starts (nextLine (afterMark (margin + 1) value) f.text) := by
  -- The place is of no importance: any place in front of the text will do.
  obtain ⟨atAtom, -⟩ := @reads_atom margin 0 f.column f.rest
    ⟨nextLine (afterMark (margin + 1) value) f.text, 0, margin, 0, true⟩ value isAtom floatFree rfl
    (by omega) left token.starts (Nat.le_succ margin)
  exact atAtom.starts

private theorem starts_afterMark (value : Value) (floatFree : value.FloatFree)
    (token : Token f.rest)
    (left : f.column < margin) : Starts (nextLine (afterMark (margin + 1) value) f.text) := by
  rcases atom_or_block value with isAtom | ⟨item, items, rfl⟩ | ⟨field, fields, rfl⟩
  · exact starts_afterMark_atom isAtom floatFree token left
  · exact (token_items item items floatFree.1).starts
  · exact (@token_fields (margin + 1) f field.1 field.2 fields floatFree.1).1.starts

private theorem before_items {items : List Value} (floatFree : Value.FloatFreeItems items)
    (token : Token f.rest) (left : f.column ≤ column) :
    Token (f.before column (Printer.items column items)).rest ∧
      (f.before column (Printer.items column items)).column ≤ column := by
  cases items with
  | nil => exact ⟨token, left⟩
  | cons item items =>
    simp only [Following.before, List.isEmpty_iff, items_ne_nil, if_false]
    exact ⟨token_items item items floatFree.1, Nat.le_refl column⟩

private theorem before_items_cons (item : Value) (items : List Value) :
    f.before column (Printer.items column (item :: items)) =
      ⟨column, nextLine (Printer.items column (item :: items)) f.text⟩ := by
  simp [Following.before, items_ne_nil]

private theorem before_fields_cons (field : String × Value) (fields : List (String × Value)) :
    f.before column (Printer.fields column (field :: fields)) =
      ⟨column, nextLine (Printer.fields column (field :: fields)) f.text⟩ := by
  simp [Following.before, fields_ne_nil]

private theorem before_fields {fields : List (String × Value)}
    (floatFree : Value.FloatFreeFields fields)
    (outside : f.Outside column) : (f.before column (Printer.fields column fields)).Beneath column := by
  -- Behind the last field comes what is outside of the mapping, behind another one the next
  -- field.
  cases fields with
  | nil => exact outside.beneath
  | cons field fields =>
    obtain ⟨token, noDash⟩ := @token_fields column f field.1 field.2 fields floatFree.1
    simp only [Following.before, List.isEmpty_iff, fields_ne_nil, if_false]
    exact ⟨token, Nat.le_refl column, fun _ p found => (noDash p found).1⟩

private theorem length_items (item : Value) (items : List Value) :
    2 + (afterMark (column + 2) item).length + (Printer.items column items).length ≤
      (Printer.items column (item :: items)).length := by
  cases items with
  | nil =>
    simp [Printer.items]
    omega
  | cons next items =>
    have both := length_nextLine_ge ('-' :: ' ' :: afterMark (column + 2) item)
      (blanks column ++ Printer.items column (next :: items))
    rw [items_cons_cons]
    simp at both
    omega

private theorem length_fields (key : String) (value : Value) (fields : List (String × Value)) :
    (entryText column key (afterKey column value) (afterMark (column + 2) value)).length +
        (Printer.fields column fields).length ≤
      (Printer.fields column ((key, value) :: fields)).length := by
  cases fields with
  | nil => simp [Printer.fields]
  | cons next fields =>
    have both := length_nextLine_ge
      (entryText column key (afterKey column value) (afterMark (column + 2) value))
      (blanks column ++ Printer.fields column (next :: fields))
    rw [fields_cons_cons]
    simp at both
    omega

private theorem length_entryText_simple {key : String} {behindKey behindMark : List Char}
    (simple : Printer.isSimpleKey key = true) :
    2 + behindKey.length ≤ (entryText column key behindKey behindMark).length := by
  have positive := List.length_pos_iff.mpr (scalarText_ne_nil (column + 2) key)
  rw [entryText, if_pos simple, List.length_append, List.length_cons]
  omega

private theorem length_entryText_question {key : String} {behindKey behindMark : List Char}
    (long : Printer.isSimpleKey key = false) :
    4 + (scalarText (column + 2) key).length + behindMark.length ≤
      (entryText column key behindKey behindMark).length := by
  have both := length_nextLine_ge ('?' :: ' ' :: scalarText (column + 2) key)
    (blanks column ++ ':' :: ' ' :: behindMark)
  rw [entryText, if_neg (by simp [long])]
  simp at both
  omega

/-! ### Values and the blocks they consist of

The readers call one another with less and less fuel, and the theorems about them follow the fuel.
Four units for each character are enough: a dash, a colon and a question mark each have a blank or a
line end behind them, and only a few readers call one another from one mark to the next. Where a
theorem uses another one at the same fuel, the second part of the measure decreases. -/

mutual

/-- A value is read behind a dash or another mark. -/
private theorem reads_marked (value : Value) {margin fuel : Nat} {dashes : Bool} {f : Following}
    {p : Position} (floatFree : value.FloatFree)
    (found : p.rest = ' ' :: nextLine (afterMark (margin + 1) value) f.text)
    (here : p.column = margin) (fresh : p.fresh = true) (token : Token f.rest)
    (left : f.column < margin) (enough : 4 * (afterMark (margin + 1) value).length + 4 ≤ fuel) :
    ∃ q, Reads (blockNode margin dashes fuel {}) p (Node.ofValue value) q ∧
      q.Below p.line f.column f.rest := by
  have starts := starts_afterMark value floatFree token left
  have skipped : p.skip false = p.advance 1 := @Position.skip_blanks false 1 p _ found starts
  have inside : (p.advance 1).rest = nextLine (afterMark (margin + 1) value) f.text := by
    simp [found]
  have column : (p.advance 1).column = margin + 1 := congrArg (· + 1) here
  have outside : f.Outside (margin + 1) := ⟨token, by omega, .inr (by omega)⟩
  show ∃ q : Position, _ ∧ q.Below (p.advance 1).line f.column f.rest
  -- Behind a mark the first line of a block goes on in the same line, one column further right
  -- than the margin.
  rcases atom_or_block value with isAtom | ⟨item, items, rfl⟩ | ⟨field, fields, rfl⟩
  · exact reads_marked_atom isAtom floatFree skipped inside column token left (by omega)
  · obtain ⟨fuel, rfl⟩ : ∃ n, fuel = n + 1 := ⟨fuel - 1, by omega⟩
    have isToken : Token (p.advance 1).rest := inside ▸ token_items item items floatFree.1
    have dash := atMark_of_blank (inside.trans (nextLine_items item items floatFree.1))
    have nonempty : (p.advance 1).rest ≠ [] := inside ▸ nextLine_ne_nil (items_ne_nil _ _ _) _
    have shorter : 4 * (Printer.items (margin + 1) (item :: items)).length + 3 ≤ fuel :=
      Nat.le_of_succ_le_succ enough
    obtain ⟨q, read, below⟩ := reads_items item items floatFree (skip_of_token isToken) inside column
      fresh outside shorter
    exact ⟨q, reads_blockNode_dash skipped (notAtEnd_of_token isToken nonempty) (by omega) fresh dash
      (column ▸ read), below⟩
  · exact reads_object field fields floatFree skipped inside column fresh (Nat.le_succ margin) outside
      enough
termination_by (fuel, 1)

/-- A value is read behind the colon of a key. -/
private theorem reads_keyed (value : Value) {column fuel : Nat} {f : Following}
    {p : Position} (floatFree : value.FloatFree)
    (found : p.rest = nextLine (afterKey column value) f.text) (right : column < p.column)
    (beneath : f.Beneath column) (enough : 4 * (afterKey column value).length + 4 ≤ fuel) :
    ∃ q, Reads (blockNode (column + 1) true fuel {}) p (Node.ofValue value) q ∧
      q.Below p.line f.column f.rest := by
  -- A sequence starts in the column of the key, so that its dashes are taken by the reader for
  -- those; a mapping is indented and read as it is anywhere.
  rcases atom_or_block value with isAtom | ⟨item, items, rfl⟩ | ⟨field, fields, rfl⟩
  · exact reads_keyed_atom isAtom floatFree found right beneath (by omega)
  · obtain ⟨fuel, rfl⟩ : ∃ n, fuel = n + 1 := ⟨fuel - 1, by omega⟩
    have behind : p.rest = '\n' :: (blanks column ++
        nextLine (Printer.items column (item :: items)) f.text) :=
      found.trans (nextLine_append ('\n' :: blanks column) (items_ne_nil _ _ _) f.text)
    have isToken := @token_items column f item items floatFree.1
    have under := Position.below_newline behind isToken.starts
    have nonempty : (p.skip false).rest ≠ [] := under.rest ▸ nextLine_ne_nil (items_ne_nil _ _ _) _
    have dash := atMark_of_blank (under.rest.trans (nextLine_items item items floatFree.1))
    have longer : (afterKey column (.array (item :: items))).length =
      ('\n' :: blanks column ++ Printer.items column (item :: items)).length := rfl
    rw [← under.rest] at isToken
    obtain ⟨q, read, below⟩ := @reads_dashes item items column fuel f (p.skip false) _ floatFree
      (skip_of_token isToken) under.rest under.column under.fresh beneath (by simp at longer; omega)
    refine ⟨q, ?_, below.mono (Nat.le_of_lt under.line)⟩
    exact reads_blockNode_dashes rfl (notAtEnd_of_token isToken nonempty) (congrArg (· + 1) under.column)
      under.fresh dash (under.column ▸ read)
  · have behind : p.rest = '\n' :: (blanks (column + 2) ++
        nextLine (Printer.fields (column + 2) (field :: fields)) f.text) :=
      found.trans (nextLine_append ('\n' :: blanks (column + 2)) (fields_ne_nil _ _ _) f.text)
    obtain ⟨isToken, -⟩ := @token_fields (column + 2) f field.1 field.2 fields floatFree.1
    have under := Position.below_newline behind isToken.starts
    have longer : (afterKey column (.object (field :: fields))).length =
      ('\n' :: blanks (column + 2) ++ Printer.fields (column + 2) (field :: fields)).length := rfl
    have left := beneath.left
    obtain ⟨q, read, below⟩ := @reads_object field fields (column + 1) (column + 2) fuel true f p _
      floatFree rfl under.rest under.column under.fresh (Nat.le_succ _)
      ⟨beneath.token, by omega, .inr (by omega)⟩ (by simp at longer; omega)
    exact ⟨q, read, below.mono (Nat.le_of_lt under.line)⟩
termination_by (fuel, 1)

/-- An item of a sequence is read behind its dash, up to the items behind it. -/
private theorem reads_item (item : Value) (items : List Value) {column fuel : Nat} {f : Following}
    {start : Position} (floatFree : Value.FloatFreeItems (item :: items))
    (found : start.rest = nextLine (Printer.items column (item :: items)) f.text)
    (here : start.column = column) (followed : Token f.rest) (farther : f.column ≤ column)
    (enough : 4 * (afterMark (column + 2) item).length + 4 ≤ fuel + 1) :
    start.atDocumentEnd = false ∧ start.atMark '-' = true ∧
      ∃ q, Reads (blockNode (column + 1) false (fuel + 1) {}) { start.advance 1 with fresh := true }
          (Node.ofValue item) q ∧
        q.Below start.line (f.before column (Printer.items column items)).column
          (f.before column (Printer.items column items)).rest := by
  have isToken : Token start.rest := found ▸ token_items item items floatFree.1
  have nonempty : start.rest ≠ [] := found ▸ nextLine_ne_nil (items_ne_nil _ _ _) _
  have notAtEnd := notAtEnd_of_token isToken nonempty
  obtain ⟨token, left⟩ := before_items floatFree.2 followed farther
  rw [nextLine_items item items floatFree.1] at found
  have dash := atMark_of_blank found
  have reads := @reads_marked item (column + 1) (fuel + 1) false _
    { start.advance 1 with fresh := true } floatFree.1 (by simp [found]) (by simp [here]) rfl token
    (Nat.lt_succ_of_le left) enough
  exact ⟨notAtEnd, dash, reads⟩
termination_by (fuel + 1, 2)

private theorem reads_items (item : Value) (items : List Value) {column fuel : Nat} {f : Following}
    {p start : Position} (floatFree : Value.FloatFreeItems (item :: items))
    (skipped : p.skip false = start)
    (found : start.rest = nextLine (Printer.items column (item :: items)) f.text)
    (here : start.column = column) (fresh : start.fresh = true) (outside : f.Outside column)
    (enough : 4 * (Printer.items column (item :: items)).length + 3 ≤ fuel) :
    ∃ q, Reads (blockItems column fuel) p (Node.ofItems (item :: items)) q ∧
      q.Below start.line f.column f.rest := by
  obtain ⟨fuel, rfl⟩ : ∃ n, fuel = n + 2 := ⟨fuel - 2, by omega⟩
  have length := @length_items column item items
  have shorter : 4 * (afterMark (column + 2) item).length + 4 ≤ fuel + 1 := by omega
  obtain ⟨notAtEnd, dash, q, read, below⟩ := reads_item item items floatFree found here outside.token
    outside.left shorter
  -- What follows the item is the next one, or what is outside of the whole sequence.
  cases items with
  | nil =>
    exact ⟨q.skip false, reads_blockItems_cons skipped notAtEnd here fresh dash read
      (reads_blockItems_end (outside.ends_at below)), below.skip outside.token.starts⟩
  | cons next items =>
    rw [before_items_cons] at below
    have others : 4 * (Printer.items column (next :: items)).length + 3 ≤ fuel + 1 := by omega
    obtain ⟨r, more, done⟩ := reads_items next items floatFree.2 rfl below.rest below.column below.fresh
      outside others
    exact ⟨r, reads_blockItems_cons skipped notAtEnd here fresh dash read more,
      done.mono (Nat.le_of_lt below.line)⟩
termination_by (fuel, 0)

/-- The items of a value stand in the column of its key. -/
private theorem reads_dashes (item : Value) (items : List Value) {column fuel : Nat} {f : Following}
    {p start : Position} (floatFree : Value.FloatFreeItems (item :: items))
    (skipped : p.skip false = start)
    (found : start.rest = nextLine (Printer.items column (item :: items)) f.text)
    (here : start.column = column) (fresh : start.fresh = true) (beneath : f.Beneath column)
    (enough : 4 * (Printer.items column (item :: items)).length + 3 ≤ fuel) :
    ∃ q, Reads (dashItems column (column + 1) fuel) p (Node.ofItems (item :: items)) q ∧
      q.Below start.line f.column f.rest := by
  obtain ⟨fuel, rfl⟩ : ∃ n, fuel = n + 2 := ⟨fuel - 2, by omega⟩
  have length := @length_items column item items
  have shorter : 4 * (afterMark (column + 2) item).length + 4 ≤ fuel + 1 := by omega
  obtain ⟨notAtEnd, dash, q, read, below⟩ := reads_item item items floatFree found here beneath.token
    beneath.left shorter
  -- As in `reads_items`, but what ends the sequence may stand in its column, without a dash.
  cases items with
  | nil =>
    exact ⟨q.skip false, reads_dashItems_cons skipped notAtEnd here fresh dash read
      (reads_dashItems_end (beneath.ends_at below)), below.skip beneath.token.starts⟩
  | cons next items =>
    rw [before_items_cons] at below
    have others : 4 * (Printer.items column (next :: items)).length + 3 ≤ fuel + 1 := by omega
    obtain ⟨r, more, done⟩ :=
      reads_dashes next items floatFree.2 rfl below.rest below.column below.fresh
      beneath others
    exact ⟨r, reads_dashItems_cons skipped notAtEnd here fresh dash read more,
      done.mono (Nat.le_of_lt below.line)⟩
termination_by (fuel, 0)

/-- An entry with a simple key, and the entries behind it. -/
private theorem reads_simpleEntry (key : String) (value : Value) (fields : List (String × Value))
    {margin column fuel : Nat} {f : Following} {p : Position}
    (floatFree : Value.FloatFreeFields ((key, value) :: fields))
    (simple : Printer.isSimpleKey key = true)
    (found : p.rest = scalarText (column + 2) key ++
      ':' :: nextLine (afterKey column value) (f.before column (Printer.fields column fields)).text)
    (here : p.column = column) (right : margin ≤ column + 1) (outside : f.Outside column)
    (enough : 4 * (afterKey column value).length + 4 ≤ fuel + 1)
    (others : 4 * (Printer.fields column fields).length + 4 ≤ fuel + 1) :
    p.AtAtom ∧ (p.at? '|' = false ∧ p.at? '>' = false) ∧
      ∃ q r s, Reads (atom false margin (fuel + 1) {}) p (.scalar none (textStyle key) key) q ∧
        q.skip false = q ∧ q.atMark ':' = true ∧ isKeyAt p q = true ∧
        Reads (blockNode (column + 1) true (fuel + 1) {}) { q.advance 1 with fresh := false }
          (Node.ofValue value) r ∧
        Reads (moreEntries column (fuel + 1)) r (Node.ofFields fields) s ∧
        s.Below p.line f.column f.rest := by
  have ends := @endsWord_afterKey column (f.before column (Printer.fields column fields)) value
  obtain ⟨atAtom, noBlock, q, read, behind, farther, sameLine, isKey⟩ :=
    reads_simpleKey simple margin fuel found ends (by omega)
  have colon : q.skip false = q :=
    Position.skip_of_starts (behind ▸ ⟨rfl, rfl, by decide⟩)
  have atColon : q.atMark ':' = true := by simp [Position.atMark, behind, ends]
  -- Behind the colon comes the value, and behind the value the entries that are left.
  obtain ⟨r, inside, below⟩ := @reads_keyed value column (fuel + 1) _
    { q.advance 1 with fresh := false } floatFree.1 (by simp [behind]) (by simp; omega)
    (before_fields floatFree.2 outside) enough
  obtain ⟨s, more, done⟩ := reads_more fields floatFree.2 below outside others
  exact ⟨atAtom, noBlock, q, r, s, read, colon, atColon, isKey, inside, more, sameLine ▸ done⟩
termination_by (fuel + 1, 2)

/-- The fields of an object are read where a node may start. -/
private theorem reads_object (field : String × Value) (fields : List (String × Value))
    {margin column fuel : Nat}
    {dashes : Bool} {f : Following} {p start : Position}
    (floatFree : Value.FloatFreeFields (field :: fields)) (skipped : p.skip false = start)
    (found : start.rest = nextLine (Printer.fields column (field :: fields)) f.text)
    (here : start.column = column) (fresh : start.fresh = true) (right : margin ≤ column)
    (outside : f.Outside column)
    (enough : 4 * (Printer.fields column (field :: fields)).length + 4 ≤ fuel) :
    ∃ q, Reads (blockNode margin dashes fuel {}) p (.mapping none (Node.ofFields (field :: fields))) q ∧
      q.Below start.line f.column f.rest := by
  obtain ⟨key, value⟩ := field
  obtain ⟨isToken, noDash⟩ := @token_fields column f key value fields floatFree.1
  have nonempty : start.rest ≠ [] := found ▸ nextLine_ne_nil (fields_ne_nil _ _ _) _
  have dashless := (noDash start found).1
  rw [← found] at isToken
  have length := @length_fields column key value fields
  have written := found
  rw [nextLine_fields] at written
  -- The first key alone tells the reader that there is a mapping: by its colon, or by a question
  -- mark.
  cases simple : Printer.isSimpleKey key with
  | true =>
    obtain ⟨fuel, rfl⟩ : ∃ n, fuel = n + 2 := ⟨fuel - 2, by omega⟩
    have shorter := @length_entryText_simple column key (afterKey column value)
      (afterMark (column + 2) value) simple
    rw [nextLine_entryText_simple simple (afterKey_ne_nil column value)] at written
    have reads := @reads_simpleEntry key value fields margin column fuel f start floatFree simple
      written here (by omega) outside (by omega) (by omega)
    obtain ⟨atAtom, noBlock, q, r, s, first, colon, atColon, isKey, inside, more, below⟩ := reads
    subst here
    exact ⟨s, reads_blockNode_key skipped atAtom right fresh noBlock first colon atColon isKey inside
      more, below⟩
  | false =>
    obtain ⟨fuel, rfl⟩ : ∃ n, fuel = n + 1 := ⟨fuel - 1, by omega⟩
    rw [nextLine_entryText_question simple (afterMark_ne_nil _ floatFree.1)] at written
    have question := atMark_of_blank written
    obtain ⟨q, read, below⟩ := @reads_entries (key, value) fields column fuel f start start floatFree
      (skip_of_token isToken) found here fresh outside (by omega)
    subst here
    exact ⟨q, reads_blockNode_question skipped (notAtEnd_of_token isToken nonempty) right fresh dashless
      question read, below⟩
termination_by (fuel, 0)

private theorem reads_entries (field : String × Value) (fields : List (String × Value))
    {column fuel : Nat}
    {f : Following} {p start : Position}
    (floatFree : Value.FloatFreeFields (field :: fields)) (skipped : p.skip false = start)
    (found : start.rest = nextLine (Printer.fields column (field :: fields)) f.text)
    (here : start.column = column) (fresh : start.fresh = true)
    (outside : f.Outside column)
    (enough : 4 * (Printer.fields column (field :: fields)).length + 3 ≤ fuel) :
    ∃ q, Reads (blockEntries column fuel) p (Node.ofFields (field :: fields)) q ∧
      q.Below start.line f.column f.rest := by
  obtain ⟨key, value⟩ := field
  have length := @length_fields column key value fields
  rw [nextLine_fields] at found
  cases simple : Printer.isSimpleKey key with
  | true =>
    obtain ⟨fuel, rfl⟩ : ∃ n, fuel = n + 2 := ⟨fuel - 2, by omega⟩
    have shorter := @length_entryText_simple column key (afterKey column value)
      (afterMark (column + 2) value) simple
    rw [nextLine_entryText_simple simple (afterKey_ne_nil column value)] at found
    have reads := @reads_simpleEntry key value fields (column + 1) column fuel f start floatFree
      simple found here (Nat.le_refl _) outside (by omega) (by omega)
    obtain ⟨atAtom, -, q, r, s, first, colon, atColon, isKey, inside, more, below⟩ := reads
    exact ⟨s, reads_blockEntries_key skipped here fresh atAtom first colon atColon isKey inside more,
      below⟩
  -- The key and the value are both read behind a mark, the colon in the column of the question
  -- mark.
  | false =>
    obtain ⟨fuel, rfl⟩ : ∃ n, fuel = n + 2 := ⟨fuel - 2, by omega⟩
    have shorter := @length_entryText_question column key (afterKey column value)
      (afterMark (column + 2) value) simple
    rw [nextLine_entryText_question simple (afterMark_ne_nil _ floatFree.1)] at found
    obtain ⟨token, left, -⟩ := before_fields floatFree.2 outside
    generalize behind : ':' :: ' ' :: nextLine (afterMark (column + 2) value)
      (f.before column (Printer.fields column fields)).text = colon at found
    have isToken : Token colon := behind ▸ token_of_blank (by decide) _
    have keyShorter : 4 * (scalarText (column + 2) key).length + 4 ≤ fuel + 1 := by omega
    obtain ⟨q, first, under⟩ := @reads_marked (.string key) (column + 1) (fuel + 1) true ⟨column, colon⟩
      { start.advance 1 with fresh := true } trivial (by simp [found]; rfl) (by simp [here]) rfl isToken
      (Nat.lt_succ_self column) keyShorter
    have atColon : (q.skip false).rest = ':' :: ' ' :: nextLine (afterMark (column + 2) value)
      (f.before column (Printer.fields column fields)).text := under.rest.trans behind.symm
    have notAtEnd : (q.skip false).atDocumentEnd = false :=
      notAtEnd_of_token (under.rest ▸ isToken) (by simp [atColon])
    have sameColumn : (q.skip false).column = column := under.column
    have valueShorter : 4 * (afterMark (column + 2) value).length + 4 ≤ fuel + 1 := by omega
    obtain ⟨r, inside, below⟩ := @reads_marked value (column + 1) (fuel + 1) true _
      { (q.skip false).advance 1 with fresh := true } floatFree.1 (by simp [atColon])
      (by simp [sameColumn]) rfl token (Nat.lt_succ_of_le left) valueShorter
    have others : 4 * (Printer.fields column fields).length + 4 ≤ fuel + 1 := by omega
    obtain ⟨s, more, done⟩ := reads_more fields floatFree.2 below outside others
    exact ⟨s, reads_blockEntries_question skipped here fresh (atMark_of_blank found) first rfl notAtEnd
      sameColumn under.fresh (atMark_of_blank atColon) inside more, done.mono (Nat.le_of_lt under.line)⟩
termination_by (fuel, 0)

/-- The entries behind one that was read. -/
private theorem reads_more (fields : List (String × Value)) {column fuel line : Nat}
    {f : Following} {p : Position} (floatFree : Value.FloatFreeFields fields)
    (below : p.Below line (f.before column (Printer.fields column fields)).column
      (f.before column (Printer.fields column fields)).rest)
    (outside : f.Outside column) (enough : 4 * (Printer.fields column fields).length + 4 ≤ fuel) :
    ∃ q, Reads (moreEntries column fuel) p (Node.ofFields fields) q ∧
      q.Below line f.column f.rest := by
  obtain ⟨fuel, rfl⟩ : ∃ n, fuel = n + 1 := ⟨fuel - 1, by omega⟩
  -- Without entries the mapping ends here, at a token further left or at the end.
  cases fields with
  | nil =>
    exact ⟨p.skip false, reads_moreEntries_end (outside.ends_at below), below.skip outside.token.starts⟩
  | cons field fields =>
    rw [before_fields_cons] at below
    obtain ⟨isToken, -⟩ := @token_fields column f field.1 field.2 fields floatFree.1
    have nonempty : (p.skip false).rest ≠ [] := below.rest ▸ nextLine_ne_nil (fields_ne_nil _ _ _) _
    have same : (p.skip false).rest =
        nextLine (Printer.fields column ((field.1, field.2) :: fields)) f.text := below.rest
    rw [← same] at isToken
    obtain ⟨q, read, done⟩ := @reads_entries field fields column fuel f (p.skip false) (p.skip false)
      floatFree (skip_of_token isToken) below.rest below.column below.fresh outside (by omega)
    exact ⟨q, reads_moreEntries rfl (notAtEnd_of_token isToken nonempty) below.column read,
      done.mono (Nat.le_of_lt below.line)⟩
termination_by (fuel, 0)

end

/-! ## Documents -/

private theorem reads_documentEnds {fuel : Nat} {p : Position}
    (nothing : (p.skip false).rest = []) :
    Reads (documentEnds (fuel + 1)) p () (p.skip false) := by
  rw [documentEnds]
  refine Reads.bind (reads_skip rfl) ?_
  rw [if_neg (by simp [Position.atDocumentMark, nothing])]
  exact reads_pure () _

theorem reads_directives {fuel : Nat} {p : Position} (starts : Starts p.rest)
    (noDirective : p.at? '%' = false) : Reads (directives (fuel + 1) false) p false p := by
  rw [directives]
  refine Reads.bind (reads_skip (Position.skip_of_starts starts)) ?_
  simp only [noDirective, Bool.and_false, Bool.not_false, if_true]
  exact reads_pure false p

/-- A document that is one node from its first character on. -/
theorem reads_document_of_blockNode {fuel : Nat} {p q : Position} {node : Node}
    (starts : Starts p.rest) (noDirective : p.at? '%' = false) (inside : p.atDocumentBoundary = false)
    (read : Reads (blockNode 0 false (fuel + 1) {}) p node q) (nothing : (q.skip false).rest = []) :
    Reads (document (fuel + 1)) p node (q.skip false) := by
  have still : (q.skip false).skip false = q.skip false :=
    Position.skip_of_starts (nothing ▸ token_nil.starts)
  rw [Position.atDocumentBoundary, Bool.or_eq_false_iff] at inside
  rw [document]
  refine Reads.bind (reads_directives starts noDirective) ?_
  refine Reads.bind (reads_skip (Position.skip_of_starts starts)) ?_
  simp only [inside, Bool.false_eq_true, if_false]
  refine Reads.bind read (Reads.bind (reads_documentEnds nothing) ?_)
  refine Reads.bind (reads_skip still) ?_
  rw [if_pos (by simp [nothing])]
  exact reads_pure _ _

/-- A document that is one mapping from its first column on. -/
private theorem reads_document {field : String × Value} {fields : List (String × Value)}
    {fuel : Nat}
    (floatFree : Value.FloatFreeFields (field :: fields))
    (enough : 4 * (Printer.fields 0 (field :: fields)).length + 4 ≤ fuel) :
    ∃ q, Reads (document fuel) { rest := nextLine (Printer.fields 0 (field :: fields)) [] }
      (Node.ofValue (.object (field :: fields))) q := by
  obtain ⟨fuel, rfl⟩ : ∃ n, fuel = n + 1 := ⟨fuel - 1, by omega⟩
  -- Nothing follows, so the document is outside of every block at once.
  let f : Following := ⟨0, []⟩
  have outside : f.Outside 0 := ⟨token_nil, Nat.le_refl 0, .inl rfl⟩
  obtain ⟨isToken, others⟩ := @token_fields 0 f field.1 field.2 fields floatFree.1
  generalize atStart : ({ rest := nextLine (Printer.fields 0 (field :: fields)) [] } : Position) = p
  have found : p.rest = nextLine (Printer.fields 0 (field :: fields)) f.text := by
    rw [← atStart]
    rfl
  have front : p.column = 0 := by rw [← atStart]
  have fresh : p.fresh = true := by rw [← atStart]
  have starts : Starts p.rest := found ▸ isToken.starts
  obtain ⟨q, read, below⟩ := @reads_object field fields 0 0 (fuel + 1) false f p p floatFree
    (Position.skip_of_starts starts) found front fresh (Nat.le_refl 0) outside enough
  exact ⟨q.skip false, reads_document_of_blockNode starts (others p found).2 (isToken.inside p found)
    read below.rest⟩

end Reader

/-- A text without a mark of the order of bytes is read from its first character on, if all its
characters are allowed. -/
theorem read?_of_noMark {text : String} (noMark : text.toList.head? ≠ some '\ufeff') :
    read? text = if text.toList.all isAllowed then
      (Reader.document (8 * text.toList.length + 64) { position := { rest := text.toList } }).map (·.1)
    else none := by
  rw [read?]
  cases found : text.toList with
  | nil => rfl
  | cons c rest =>
    rw [found] at noMark
    have different : c ≠ '\ufeff' := by simpa using noMark
    simp [different, -List.all_cons]

/-- The tree of an object is read from the text that is rendered for it. -/
theorem read?_render {field : String × Value} {fields : List (String × Value)}
    (floatFree : Value.FloatFreeFields (field :: fields)) :
    read? (render (.object (field :: fields))) = some (Node.ofValue (.object (field :: fields))) := by
  have printable := @Printer.printable_render (.object (field :: fields)) floatFree
  have written : (render (.object (field :: fields))).toList =
      nextLine (Printer.fields 0 (field :: fields)) [] := String.toList_ofList
  have allowed : (render (.object (field :: fields))).toList.all isAllowed = true :=
    List.all_eq_true.mpr fun c member => (Printer.isAllowed_of_isPrintable (printable c member)).1
  have noMark : (render (.object (field :: fields))).toList.head? ≠ some '\ufeff' := fun isMark =>
    (Printer.isAllowed_of_isPrintable (printable _ (List.mem_of_mem_head? isMark))).2 rfl
  -- The reader is given eight units of fuel for each character, and needs four.
  have long := length_nextLine_ge (Printer.fields 0 (field :: fields)) []
  have reads := @Reader.reads_document field fields
    (8 * (nextLine (Printer.fields 0 (field :: fields)) []).length + 64) floatFree (by omega)
  rw [read?_of_noMark noMark, if_pos allowed, written]
  obtain ⟨q, reads⟩ := reads
  exact congrArg (Option.map (·.1)) reads

end Blueprint.Yaml
