import Blueprint.Proofs.Json.Tokens
import Blueprint.Proofs.Value

/-!
# Reading every spelling of a value

`Spells` says how a value may be laid out as JSON: the tokens of its parts, each written in one way,
with any blanks before an item, a field or a closing bracket and after a colon. The reader finds the
tree of the value in each of these texts, and the two ways of printing give two of them.
-/

namespace Blueprint.Json

/-! ## Blanks -/

/-- A character that may stand between tokens. -/
def IsBlank (c : Char) : Prop :=
  c = ' ' ∨ c = '\n' ∨ c = '\t' ∨ c = '\r'

private theorem token_quote : ¬IsBlank '"' := by simp [IsBlank]

private theorem token_colon : ¬IsBlank ':' := by simp [IsBlank]

private theorem token_comma : ¬IsBlank ',' := by simp [IsBlank]

private theorem token_bracket : ¬IsBlank ']' := by simp [IsBlank]

private theorem token_brace : ¬IsBlank '\x7d' := by simp [IsBlank]

/-- A text of blanks. -/
def Blank (text : List Char) : Prop :=
  ∀ c ∈ text, IsBlank c

/-- A text that starts with a token, and not with the end of an array. -/
def Starts (text : List Char) : Prop :=
  ∃ c rest, text = c :: rest ∧ ¬IsBlank c ∧ c ≠ ']'

private theorem skipBlanks_append {blanks : List Char} (blank : Blank blanks) (text : List Char) :
    skipBlanks (blanks ++ text) = skipBlanks text := by
  induction blanks with
  | nil => rfl
  | cons c blanks ih =>
    have head : c = ' ' ∨ c = '\n' ∨ c = '\t' ∨ c = '\r' := blank c (by simp)
    rw [List.cons_append, skipBlanks, if_pos head]
    exact ih fun c member => blank c (List.mem_cons_of_mem _ member)

theorem skipBlanks_token {c : Char} (token : ¬IsBlank c) (rest : List Char) :
    skipBlanks (c :: rest) = c :: rest := by
  unfold skipBlanks
  exact if_neg token

private theorem skipBlanks_of_starts {text : List Char} (starts : Starts text) (rest : List Char) :
    skipBlanks (text ++ rest) = text ++ rest := by
  obtain ⟨c, tail, rfl, token, -⟩ := starts
  exact skipBlanks_token token (tail ++ rest)

private theorem skipBlanks_append_token {blanks : List Char} (blank : Blank blanks) {c : Char}
    (token : ¬IsBlank c) (rest : List Char) : skipBlanks (blanks ++ c :: rest) = c :: rest := by
  rw [skipBlanks_append blank, skipBlanks_token token]

private theorem skipBlanks_append_starts {blanks text : List Char} (blank : Blank blanks)
    (starts : Starts text) (rest : List Char) :
    skipBlanks (blanks ++ (text ++ rest)) = text ++ rest := by
  rw [skipBlanks_append blank, skipBlanks_of_starts starts]

/-- What separates or closes the parts of a value does not belong to a number. -/
private theorem ends_cons {c : Char} (closing : c ∈ [',', ']', '\x7d']) (rest : List Char) :
    Ends (c :: rest) := by
  intro d member
  obtain rfl : c = d := by simpa using member
  simp only [List.mem_cons, List.not_mem_nil, or_false] at closing
  rcases closing with rfl | rfl | rfl <;> decide

private theorem ends_append {blanks : List Char} (blank : Blank blanks) {rest : List Char}
    (ends : Ends rest) : Ends (blanks ++ rest) := by
  cases blanks with
  | nil => exact ends
  | cons c blanks =>
    intro d member
    obtain rfl : c = d := by simpa using member
    rcases blank c (by simp) with rfl | rfl | rfl | rfl <;> decide

/-! ## Spellings -/

mutual
/-- A text is a value laid out as JSON. -/
inductive Spells : Value → List Char → Prop
  | null : Spells .null "null".toList
  | true : Spells (.bool true) "true".toList
  | false : Spells (.bool false) "false".toList
  | whole (n : Whole) : Spells (.number (.whole n)) n.toText
  | string (s : String) : Spells (.string s) (quote s.toList)
  | noItems : Spells (.array []) ['[', ']']
  | items {items : List Value} {text : List Char} (inner : SpellsItems items text) :
      Spells (.array items) ('[' :: (text ++ [']']))
  | noFields : Spells (.object []) ['\x7b', '\x7d']
  | fields {fields : List (String × Value)} {text : List Char} (inner : SpellsFields fields text) :
      Spells (.object fields) ('\x7b' :: (text ++ ['\x7d']))

/-- A text is the items of an array laid out as JSON; there is at least one. -/
inductive SpellsItems : List Value → List Char → Prop
  | last {item : Value} {before text after : List Char} (blankBefore : Blank before)
      (spelled : Spells item text) (blankAfter : Blank after) :
      SpellsItems [item] (before ++ (text ++ after))
  | more {item : Value} {rest : List Value} {before text others : List Char}
      (blankBefore : Blank before) (spelled : Spells item text)
      (spelledOthers : SpellsItems rest others) :
      SpellsItems (item :: rest) (before ++ (text ++ ',' :: others))

/-- A text is the fields of an object laid out as JSON; there is at least one. -/
inductive SpellsFields : List (String × Value) → List Char → Prop
  | last {name : String} {value : Value} {before gap text after : List Char}
      (blankBefore : Blank before) (blankGap : Blank gap) (spelled : Spells value text)
      (blankAfter : Blank after) :
      SpellsFields [(name, value)] (before ++ (quote name.toList ++ ':' :: (gap ++ (text ++ after))))
  | more {name : String} {value : Value} {rest : List (String × Value)}
      {before gap text others : List Char} (blankBefore : Blank before) (blankGap : Blank gap)
      (spelled : Spells value text) (spelledOthers : SpellsFields rest others) :
      SpellsFields ((name, value) :: rest)
        (before ++ (quote name.toList ++ ':' :: (gap ++ (text ++ ',' :: others))))
end

/-- A number starts with its sign or a digit, which nothing else starts with. -/
private theorem exists_toText (n : Whole) : ∃ c rest, n.toText = c :: rest ∧
    c ∉ [' ', '\n', '\t', '\r', ']', '\x7d', '\x7b', '[', '"', 't', 'f', 'n'] := by
  rw [Whole.toText]
  split
  · exact ⟨'-', _, rfl, by decide⟩
  · obtain ⟨c, rest, written⟩ := exists_decimal n.value.natAbs
    have first : c ∈ Text.decimal n.value.natAbs := by simp [written]
    have isDigit : c.isDigit = true := isDigit_of_mem_decimal first
    refine ⟨c, rest, written, fun member => ?_⟩
    -- None of the excluded characters is a digit.
    have noDigit : [' ', '\n', '\t', '\r', ']', '\x7d', '\x7b', '[', '"', 't', 'f', 'n'].all
        (fun d => !d.isDigit) = true := by decide
    have excluded := List.all_eq_true.mp noDigit c member
    rw [isDigit] at excluded
    contradiction

/-- Every spelling starts with a token. -/
private theorem Spells.starts {value : Value} {text : List Char} (spelled : Spells value text) :
    Starts text := by
  cases spelled with
  | null => exact ⟨'n', _, rfl, by simp [IsBlank]⟩
  | true => exact ⟨'t', _, rfl, by simp [IsBlank]⟩
  | false => exact ⟨'f', _, rfl, by simp [IsBlank]⟩
  | whole n =>
    obtain ⟨c, rest, written, first⟩ := exists_toText n
    simp only [List.mem_cons, not_or] at first
    exact ⟨c, rest, written, by simp [IsBlank, first]⟩
  | string s => exact ⟨'"', _, rfl, by simp [IsBlank]⟩
  | noItems => exact ⟨'[', _, rfl, by simp [IsBlank]⟩
  | items inner => exact ⟨'[', _, rfl, by simp [IsBlank]⟩
  | noFields => exact ⟨'\x7b', _, rfl, by simp [IsBlank]⟩
  | fields inner => exact ⟨'\x7b', _, rfl, by simp [IsBlank]⟩

private theorem SpellsItems.not_closed {items : List Value} {text : List Char}
    (spelled : SpellsItems items text) (rest tail : List Char) :
    skipBlanks (text ++ rest) ≠ ']' :: tail := by
  have open_of_starts {before first : List Char} (blankBefore : Blank before)
      (starts : Starts first) (others : List Char) :
      skipBlanks (before ++ (first ++ others)) ≠ ']' :: tail := by
    rw [skipBlanks_append_starts blankBefore starts]
    obtain ⟨c, start, rfl, -, notClosing⟩ := starts
    exact fun same => notClosing (List.cons.inj same).1
  cases spelled with
  | last blankBefore spelled blankAfter =>
    rw [List.append_assoc, List.append_assoc]
    exact open_of_starts blankBefore spelled.starts _
  | more blankBefore spelled spelledOthers =>
    rw [List.append_assoc, List.append_assoc]
    exact open_of_starts blankBefore spelled.starts _

private theorem SpellsFields.skipBlanks_quote {fields : List (String × Value)} {text : List Char}
    (spelled : SpellsFields fields text) (rest : List Char) :
    ∃ tail, skipBlanks (text ++ rest) = '"' :: tail := by
  cases spelled with
  | last blankBefore blankGap spelled blankAfter =>
    rw [List.append_assoc, skipBlanks_append blankBefore]
    exact ⟨_, skipBlanks_token token_quote _⟩
  | more blankBefore blankGap spelled spelledOthers =>
    rw [List.append_assoc, skipBlanks_append blankBefore]
    exact ⟨_, skipBlanks_token token_quote _⟩

/-! ## Reading spellings -/

private theorem value?_items (fuel : Nat) {text : List Char}
    (notClosed : ∀ tail, skipBlanks text ≠ ']' :: tail) :
    value? (fuel + 1) ('[' :: text) =
      (items? fuel (skipBlanks text)).map fun (items, rest) => (.array items, rest) := by
  rw [value?, if_neg (by decide), if_pos rfl]
  -- An array without items is a case of its own, which is ruled out.
  split
  · rename_i closed
    exact absurd closed (notClosed _)
  · rfl

private theorem value?_fields (fuel : Nat) {text : List Char}
    (notClosed : ∀ tail, skipBlanks text ≠ '\x7d' :: tail) :
    value? (fuel + 1) ('\x7b' :: text) =
      (members? fuel (skipBlanks text)).map fun (members, rest) => (.object members, rest) := by
  rw [value?, if_pos rfl]
  split
  · rename_i closed
    exact absurd closed (notClosed _)
  · rfl

private theorem value?_toText (fuel : Nat) (n : Whole) {rest : List Char} (ends : Ends rest) :
    value? (fuel + 1) (n.toText ++ rest) = some (.number (some (.whole n)), rest) := by
  obtain ⟨c, tail, written, first⟩ := exists_toText n
  simp only [List.mem_cons, not_or] at first
  have read := number?_toText n ends
  rw [written] at read ⊢
  simpa only [List.cons_append, value?, first, if_false] using read

mutual
/-- The tree of a value is read from each of its spellings, up to where it ends. -/
private theorem value?_of_spells {value : Value} {text rest : List Char} {fuel : Nat}
    (spelled : Spells value text) (ends : Ends rest) (enough : text.length ≤ fuel) :
    value? fuel (text ++ rest) = some (ofValue value, rest) := by
  -- A spelling has at least one character, so there is fuel for a step.
  obtain ⟨fuel, rfl⟩ : ∃ n, fuel = n + 1 := by
    obtain ⟨c, tail, rfl, -⟩ := spelled.starts
    exact ⟨fuel - 1, by simp at enough; omega⟩
  -- Induction is on the fuel. Brackets use up one step, and what is inside is shorter by two.
  cases spelled with
  | null => rfl
  | true => rfl
  | false => rfl
  | whole n => exact value?_toText fuel n ends
  | string s =>
    have read := string?_escape s.toList rest
    simp [quote, value?, read, ofValue]
  | noItems => rfl
  | @items items text inner =>
    have inside : text.length < fuel := by simp at enough; omega
    have read := items?_of_spells rest inner inside
    rw [List.cons_append, List.append_assoc, value?_items fuel (inner.not_closed _)]
    simp only [List.cons_append, List.nil_append, read, Option.map_some, ofValue]
  | noFields => rfl
  | @fields fields text inner =>
    have inside : text.length < fuel := by simp at enough; omega
    have read := members?_of_spells rest inner inside
    -- A quotation mark comes first, so this is not the end of the object.
    have notClosed : ∀ tail, skipBlanks (text ++ (['\x7d'] ++ rest)) ≠ '\x7d' :: tail := by
      obtain ⟨start, same⟩ := inner.skipBlanks_quote (['\x7d'] ++ rest)
      intro tail
      rw [same]
      simp
    rw [List.cons_append, List.append_assoc, value?_fields fuel notClosed]
    simp only [List.cons_append, List.nil_append, read, Option.map_some, ofValue]
termination_by fuel

private theorem items?_of_spells {items : List Value} {text : List Char} (rest : List Char)
    {fuel : Nat}
    (spelled : SpellsItems items text) (enough : text.length < fuel) :
    items? fuel (skipBlanks (text ++ ']' :: rest)) = some (ofItems items, rest) := by
  -- An item takes one unit of fuel and at least one character, so the fuel lasts for the others.
  obtain ⟨fuel, rfl⟩ : ∃ n, fuel = n + 1 := ⟨fuel - 1, by omega⟩
  cases spelled with
  | @last item before text after blankBefore spelled blankAfter =>
    have inside : text.length ≤ fuel := by simp at enough; omega
    have ends : Ends (after ++ ']' :: rest) := ends_append blankAfter (ends_cons (by simp) rest)
    have read := value?_of_spells spelled ends inside
    have closing := skipBlanks_append_token blankAfter token_bracket rest
    rw [List.append_assoc, List.append_assoc, skipBlanks_append_starts blankBefore spelled.starts,
      items?, read]
    simp only [closing, ofItems]
  | @more item others before text tail blankBefore spelled spelledOthers =>
    have inside : text.length ≤ fuel := by simp at enough; omega
    have ends : Ends (',' :: (tail ++ ']' :: rest)) := ends_cons (by simp) _
    have read := value?_of_spells spelled ends inside
    have separating := skipBlanks_token token_comma (tail ++ ']' :: rest)
    have readOthers := items?_of_spells rest spelledOthers
      (show tail.length < fuel by simp at enough; omega)
    rw [List.append_assoc, List.append_assoc, skipBlanks_append_starts blankBefore spelled.starts,
      List.cons_append, items?, read]
    simp only [separating, readOthers, Option.map_some, ofItems]
termination_by fuel

private theorem members?_of_spells {fields : List (String × Value)} {text : List Char}
    (rest : List Char)
    {fuel : Nat} (spelled : SpellsFields fields text) (enough : text.length < fuel) :
    members? fuel (skipBlanks (text ++ '\x7d' :: rest)) = some (ofFields fields, rest) := by
  obtain ⟨fuel, rfl⟩ : ∃ n, fuel = n + 1 := ⟨fuel - 1, by omega⟩
  cases spelled with
  | @last name value before gap text after blankBefore blankGap spelled blankAfter =>
    have inside : text.length ≤ fuel := by simp at enough; omega
    have ends : Ends (after ++ '\x7d' :: rest) := ends_append blankAfter (ends_cons (by simp) rest)
    have read := value?_of_spells spelled ends inside
    have closing := skipBlanks_append_token blankAfter token_brace rest
    simp only [List.append_assoc, List.cons_append, skipBlanks_append blankBefore, quote,
      List.nil_append, skipBlanks_token token_quote, skipBlanks_token token_colon, members?,
      string?_escape, skipBlanks_append_starts blankGap spelled.starts, read, closing, ofFields,
      String.ofList_toList]
  | @more name value others before gap text tail blankBefore blankGap spelled spelledOthers =>
    have inside : text.length ≤ fuel := by simp at enough; omega
    have ends : Ends (',' :: (tail ++ '\x7d' :: rest)) := ends_cons (by simp) _
    have read := value?_of_spells spelled ends inside
    have readOthers := members?_of_spells rest spelledOthers
      (show tail.length < fuel by simp at enough; omega)
    simp only [List.append_assoc, List.cons_append, skipBlanks_append blankBefore, quote,
      List.nil_append, skipBlanks_token token_quote, skipBlanks_token token_colon,
      skipBlanks_token token_comma, members?, string?_escape,
      skipBlanks_append_starts blankGap spelled.starts, read, readOthers, Option.map_some, ofFields,
      String.ofList_toList]
termination_by fuel
end

/-- A text that is one spelling of a value between blanks is read as the tree of the value. -/
private theorem parse?_of_spells {value : Value} {before text after : List Char}
    (blankBefore : Blank before) (spelled : Spells value text) (blankAfter : Blank after) :
    parse? (String.ofList (before ++ (text ++ after))) = some (ofValue value) := by
  have nothing : Ends [] := by simp [Ends]
  have ends : Ends after := by simpa using ends_append blankAfter nothing
  have enough : text.length ≤ (before ++ (text ++ after)).length + 1 := by
    simp only [List.length_append]
    omega
  have nothingLeft : skipBlanks after = [] := by
    rw [← List.append_nil after, skipBlanks_append blankAfter, skipBlanks]
  simp only [parse?, String.toList_ofList, skipBlanks_append blankBefore,
    skipBlanks_of_starts spelled.starts, value?_of_spells spelled ends enough, nothingLeft,
    List.isEmpty_nil, if_true]

/-! ## What is printed -/

theorem blank_nil : Blank [] := by
  simp [Blank]

private theorem blank_space : Blank [' '] := by
  simp [Blank, IsBlank]

theorem blank_newline (level : Nat) : Blank (newline level) := by
  intro c member
  rcases List.mem_cons.mp member with rfl | member
  · exact .inr (.inl rfl)
  · exact .inl (List.eq_of_mem_replicate member)

mutual
/-- What is written on one line spells the value. -/
theorem spells_compact : (value : Value) → value.FloatFree → Spells value (compact value)
  | .null, _ => .null
  | .bool true, _ => .true
  | .bool false, _ => .false
  | .number (.whole n), _ => .whole n
  | .number (.real _), floatFree => floatFree.elim
  | .string s, _ => .string s
  | .array [], _ => .noItems
  | .array (item :: rest), floatFree =>
    .items (spellsItems_compact (item :: rest) (by simp) floatFree)
  | .object [], _ => .noFields
  | .object (field :: rest), floatFree =>
    .fields (spellsFields_compact (field :: rest) (by simp) floatFree)

private theorem spellsItems_compact :
    (items : List Value) → items ≠ [] → Value.FloatFreeItems items →
    SpellsItems items (compactItems items)
  | [], nonempty, _ => absurd rfl nonempty
  | [item], _, floatFree => by
    have spelled := SpellsItems.last blank_nil (spells_compact item floatFree.1) blank_nil
    simpa [compactItems] using spelled
  | item :: next :: rest, _, floatFree =>
    .more blank_nil (spells_compact item floatFree.1)
      (spellsItems_compact (next :: rest) (by simp) floatFree.2)

private theorem spellsFields_compact : (fields : List (String × Value)) → fields ≠ [] →
    Value.FloatFreeFields fields → SpellsFields fields (compactFields fields)
  | [], nonempty, _ => absurd rfl nonempty
  | [(name, value)], _, floatFree => by
    have spelled := @SpellsFields.last name _ _ _ _ _ blank_nil blank_nil
      (spells_compact value floatFree.1) blank_nil
    simpa [compactFields] using spelled
  | (name, value) :: next :: rest, _, floatFree => by
    have spelled := @SpellsFields.more name _ _ _ _ _ _ blank_nil blank_nil
      (spells_compact value floatFree.1)
      (spellsFields_compact (next :: rest) (by simp) floatFree.2)
    simpa [compactFields] using spelled
end

mutual
/-- What is written over several lines spells the value. -/
theorem spells_pretty (level : Nat) : (value : Value) → value.FloatFree →
    Spells value (pretty level value)
  | .null, _ => .null
  | .bool true, _ => .true
  | .bool false, _ => .false
  | .number (.whole n), _ => .whole n
  | .number (.real _), floatFree => floatFree.elim
  | .string s, _ => .string s
  | .array [], _ => .noItems
  | .array (item :: rest), floatFree =>
    .items (spellsItems_pretty (level + 1) (blank_newline level) (item :: rest) (by simp) floatFree)
  | .object [], _ => .noFields
  | .object (field :: rest), floatFree =>
    .fields (spellsFields_pretty (level + 1) (blank_newline level) (field :: rest) (by simp)
      floatFree)

private theorem spellsItems_pretty (level : Nat) {after : List Char} (blankAfter : Blank after) :
    (items : List Value) → items ≠ [] → Value.FloatFreeItems items →
      SpellsItems items (prettyItems level items ++ after)
  | [], nonempty, _ => absurd rfl nonempty
  | [item], _, floatFree => by
    have spelled := SpellsItems.last (blank_newline level) (spells_pretty level item floatFree.1)
      blankAfter
    simpa [prettyItems] using spelled
  | item :: next :: rest, _, floatFree => by
    have spelled := SpellsItems.more (blank_newline level) (spells_pretty level item floatFree.1)
      (spellsItems_pretty level blankAfter (next :: rest) (by simp) floatFree.2)
    simpa [prettyItems] using spelled

private theorem spellsFields_pretty (level : Nat) {after : List Char} (blankAfter : Blank after) :
    (fields : List (String × Value)) → fields ≠ [] → Value.FloatFreeFields fields →
      SpellsFields fields (prettyFields level fields ++ after)
  | [], nonempty, _ => absurd rfl nonempty
  | [(name, value)], _, floatFree => by
    have spelled := @SpellsFields.last name _ _ _ _ _ (blank_newline level) blank_space
      (spells_pretty level value floatFree.1) blankAfter
    simpa [prettyFields] using spelled
  | (name, value) :: next :: rest, _, floatFree => by
    have spelled := @SpellsFields.more name _ _ _ _ _ _ (blank_newline level) blank_space
      (spells_pretty level value floatFree.1)
      (spellsFields_pretty level blankAfter (next :: rest) (by simp) floatFree.2)
    simpa [prettyFields] using spelled
end

/-- The tree of a value is read from its text, however that is laid out and whatever blanks
follow. -/
theorem parse?_render {value : Value} (floatFree : value.FloatFree) (spread : Bool)
    {after : List Char} (blankAfter : Blank after) :
    parse? (render spread value ++ String.ofList after) = some (ofValue value) := by
  have spelled : Spells value (if spread then pretty 0 value else compact value) := by
    cases spread with
    | false => exact spells_compact value floatFree
    | true => exact spells_pretty 0 value floatFree
  have read := parse?_of_spells blank_nil spelled blankAfter
  rwa [List.nil_append, String.ofList_append] at read

end Blueprint.Json
