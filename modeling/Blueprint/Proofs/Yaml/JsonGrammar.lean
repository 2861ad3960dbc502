import Blueprint.Proofs.Yaml.Grammar
import Blueprint.Proofs.Yaml.Portable
import Blueprint.Proofs.Yaml.Schema

/-!
# JSON read as YAML

A YAML reader takes a JSON text for flow collections of quoted scalars and plain words. If the
characters of the text are allowed, every key is near its colon and every text can be folded, it
finds the value there, with the texts as they were folded. What is spelled may be laid out in any
way.
-/

namespace Blueprint

namespace Yaml

open Json (Blank Spells SpellsItems SpellsFields)
open Value (TextsItems TextsFields mapTextsItems mapTextsFields AllowedText NearKey FoldableText foldedText)

/-! ## Characters -/

private theorem all_allowed_of_printable {text : List Char} (printable : Printer.Printable text) :
    text.all isAllowed = true :=
  List.all_eq_true.mpr fun c member => (Printer.isAllowed_of_isPrintable (printable c member)).1

private theorem all_allowed_of_blank {blanks : List Char} (blank : Blank blanks) :
    blanks.all isAllowed = true := by
  rw [List.all_eq_true]
  intro c member
  rcases blank c member with rfl | rfl | rfl | rfl <;> rfl

/-- A character that is no control stands in its JSON, with a backslash in front or without. -/
private theorem mem_escapeChar {c : Char} (visible : ¬c.toNat < 0x20) : c ∈ Text.escapeChar c := by
  unfold Text.escapeChar
  split_ifs <;> simp_all

private theorem all_allowed_escapeChar_iff (c : Char) :
    (Text.escapeChar c).all isAllowed = true ↔ c.toNat < 0x20 ∨ isAllowed c = true := by
  constructor
  · intro allowed
    by_cases control : c.toNat < 0x20
    · exact .inl control
    · exact .inr (List.all_eq_true.mp allowed c (mem_escapeChar control))
  · intro allowed
    have escape := jsonEscape_escapeChar c
    generalize Text.escapeChar c = written at escape
    cases escape with
    | self control => simp [allowed.resolve_left control]
    | letter _ allowed => simp [allowed, show isAllowed '\\' = true by decide]
    | number control =>
      have digits : ∀ n < 0x20, ['\\', 'u', '0', '0', if n < 0x10 then '0' else '1',
          Nat.digitChar (n % 16)].all isAllowed = true := by decide
      exact digits c.toNat control

private theorem all_allowed_quote_iff (s : String) :
    (Json.quote s.toList).all isAllowed = true ↔ AllowedText s := by
  have mark : isAllowed '"' = true := by decide
  have inside : (Text.escape s.toList).all isAllowed = true ↔ AllowedText s := by
    rw [Text.escape, List.all_flatMap, List.all_eq_true]
    exact forall₂_congr fun c _ => all_allowed_escapeChar_iff c
  rw [← inside, Json.quote]
  simp [mark]

mutual
/-- The characters of a spelling are allowed in YAML if those of the texts inside are. -/
theorem all_allowed_iff {value : Value} {text : List Char} : Spells value text →
    (text.all isAllowed = true ↔ value.Texts AllowedText AllowedText)
  | .null => iff_of_true (by decide) trivial
  | .true => iff_of_true (by decide) trivial
  | .false => iff_of_true (by decide) trivial
  | .whole n => iff_of_true (all_allowed_of_printable (Printer.printable_toText n)) trivial
  | .string s => all_allowed_quote_iff s
  | .noItems => iff_of_true (by decide) trivial
  | .items inner => by
    have marks : isAllowed '[' = true ∧ isAllowed ']' = true := by decide
    simpa [marks, Value.Texts] using all_allowed_items_iff inner
  | .noFields => iff_of_true (by decide) trivial
  | .fields inner => by
    have marks : isAllowed '\x7b' = true ∧ isAllowed '\x7d' = true := by decide
    simpa [marks, Value.Texts] using all_allowed_fields_iff inner

private theorem all_allowed_items_iff {items : List Value} {text : List Char} :
    SpellsItems items text →
    (text.all isAllowed = true ↔ TextsItems AllowedText AllowedText items)
  | .last blankBefore spelled blankAfter => by
    simp only [List.all_append, all_allowed_of_blank blankBefore, all_allowed_of_blank blankAfter,
      Bool.true_and, Bool.and_true, all_allowed_iff spelled, TextsItems, and_true]
  | .more blankBefore spelled spelledOthers => by
    have comma : isAllowed ',' = true := by decide
    simp only [List.all_append, List.all_cons, all_allowed_of_blank blankBefore, comma, Bool.true_and,
      Bool.and_eq_true, all_allowed_iff spelled, all_allowed_items_iff spelledOthers, TextsItems]

private theorem all_allowed_fields_iff {fields : List (String × Value)} {text : List Char} :
    SpellsFields fields text →
      (text.all isAllowed = true ↔ TextsFields AllowedText AllowedText fields)
  | .last blankBefore blankGap spelled blankAfter => by
    have colon : isAllowed ':' = true := by decide
    simp only [List.all_append, List.all_cons, all_allowed_of_blank blankBefore,
      all_allowed_of_blank blankGap, all_allowed_of_blank blankAfter, colon, Bool.true_and,
      Bool.and_true, Bool.and_eq_true, all_allowed_quote_iff, all_allowed_iff spelled, TextsFields,
      and_true]
  | .more blankBefore blankGap spelled spelledOthers => by
    have marks : isAllowed ':' = true ∧ isAllowed ',' = true := by decide
    simp only [List.all_append, List.all_cons, all_allowed_of_blank blankBefore,
      all_allowed_of_blank blankGap, marks, Bool.true_and, Bool.and_eq_true, all_allowed_quote_iff,
      all_allowed_iff spelled, all_allowed_fields_iff spelledOthers, TextsFields]
end

/-! ## Values -/

/-- Every text is in double quotation marks. -/
def quotedStyle (_ : String) : Style :=
  .doubleQuoted

/-- What is spelled starts with a token. -/
theorem starts_of_spells {value : Value} {text : List Char} (spelled : Spells value text)
    (rest : List Char) : Starts (text ++ rest) := by
  have word {word : List Char} (isWord : FlowWord word) : Starts (word ++ rest) :=
    (isWord.atFlowNode (p := { rest := word ++ rest }) rfl).starts
  cases spelled with
  | null => exact word flowWord_null
  | true => exact word (flowWord_bool true)
  | false => exact word (flowWord_bool false)
  | whole n => exact word (flowWord_whole n)
  | string | noItems | items | noFields | fields => exact ⟨rfl, rfl, by decide⟩

namespace Reader

section Atoms

variable {text blanks rest : List Char} {fuel : Nat} {p : Position}

/-- A word is read as the value that it stands for. -/
private theorem reads_spelledWord {value : Value} {word : List Char} (isWord : FlowWord word)
    (tree : Node.styled quotedStyle value = .scalar none .plain (String.ofList word))
    (blank : Blank blanks) (closes : Closes rest) (found : p.rest = word ++ (blanks ++ rest))
    (enough : 3 ≤ fuel) :
    p.AtFlowNode ∧ ∃ q, Reads (flowNode 0 fuel) p (Node.styled quotedStyle value) q ∧
      (q.skip true).rest = rest := by
  obtain ⟨fuel, rfl⟩ : ∃ n, fuel = n + 3 := ⟨fuel - 3, by omega⟩
  rw [tree]
  exact reads_word isWord blank closes found

/-- A flow sequence is read if its items are. -/
private theorem reads_spelledArray {items : List Value} (blank : Blank blanks)
    (closes : Closes rest)
    (found : p.rest = '[' :: text)
    (inside : ∃ q, Reads (flowItems 0 (fuel + 1)) { p.advance 1 with fresh := false }
      (Node.styledItems quotedStyle items) q ∧ q.rest = blanks ++ rest) :
    p.AtFlowNode ∧ ∃ q, Reads (flowNode 0 (fuel + 3)) p (Node.styled quotedStyle (.array items)) q ∧
      (q.skip true).rest = rest := by
  have mark := Position.at?_of_rest found
  have atNode := Position.atFlowNode_of_at? mark (by simp)
  obtain ⟨q, read, left⟩ := inside
  exact ⟨atNode, q, (continues_flowNode atNode.skip atNode).reads (reads_atom_items mark read),
    Position.rest_skip blank closes.starts left⟩

/-- A flow mapping is read if its entries are. -/
private theorem reads_spelledObject {fields : List (String × Value)} (blank : Blank blanks)
    (closes : Closes rest) (found : p.rest = '\x7b' :: text)
    (inside : ∃ q, Reads (flowEntries 0 (fuel + 1)) { p.advance 1 with fresh := false }
      (Node.styledFields quotedStyle fields) q ∧ q.rest = blanks ++ rest) :
    p.AtFlowNode ∧ ∃ q, Reads (flowNode 0 (fuel + 3)) p (Node.styled quotedStyle (.object fields)) q ∧
      (q.skip true).rest = rest := by
  have mark := Position.at?_of_rest found
  have atNode := Position.atFlowNode_of_at? mark (by simp)
  obtain ⟨q, read, left⟩ := inside
  exact ⟨atNode, q, (continues_flowNode atNode.skip atNode).reads (reads_atom_entries mark read),
    Position.rest_skip blank closes.starts left⟩

end Atoms

section Entries

variable {name : String} {gap text : List Char} {fuel : Nat} {p : Position}

/-- A key on one line is read up to its colon, which decides whether the reader goes on. -/
theorem continues_spelledKey (oneLine : ∀ c ∈ name.toList, isBareBreak c = false)
    (found : p.rest = Json.quote name.toList ++ ':' :: (gap ++ text)) :
    p.AtFlowNode ∧ ∃ q : Position, q.rest = ':' :: (gap ++ text) ∧
      (isKeyAt p q = true ↔ NearKey name) ∧
      Continues (flowEntry 0 false (fuel + 4)) p
        (if isKeyAt p q then do return (.scalar none .doubleQuoted name, some (← flowValue 0 (fuel + 3)))
        else failure) q := by
  obtain ⟨atNode, key⟩ := @reads_quote fuel p _ _ oneLine found
  rw [String.ofList_toList] at key
  generalize behind : ({ p.advance (Json.quote name.toList).length with fresh := false } : Position) = q
    at key
  have left : q.rest = ':' :: (gap ++ text) := by simp [← behind, found]
  have isKey : isKeyAt p q = true ↔ (Json.quote name.toList).length ≤ keyLimit := by
    simp [isKeyAt, ← behind]
  exact ⟨atNode, q, left, isKey.trans ⟨fun short => ⟨oneLine, short⟩, (·.short)⟩,
    continues_flowEntry_colon atNode key (Position.at?_of_rest left)⟩

/-- Behind a key that is near its colon the reader goes on with the value. -/
theorem continues_spelledEntry (near : NearKey name) (blankGap : Blank gap)
    (starts : Starts text) (found : p.rest = Json.quote name.toList ++ ':' :: (gap ++ text)) :
    p.AtFlowNode ∧ ∃ start : Position, start.rest = text ∧ (start.AtFlowNode →
      Continues (flowEntry 0 false (fuel + 4)) p
        (do return (.scalar none .doubleQuoted name, some (← flowNode 0 (fuel + 2)))) start) := by
  obtain ⟨atNode, q, left, isKey, continues⟩ := @continues_spelledKey name gap text fuel p
    near.oneLine found
  rw [if_pos (isKey.mpr near)] at continues
  have start := @Position.rest_skip { q.advance 1 with fresh := false } _ _ blankGap starts
    (by simp [left])
  refine ⟨atNode, _, start, fun atValue => Eq.trans continues (Continues.andThen ?_ _)⟩
  exact continues_flowValue (Position.at?_of_rest left) rfl atValue

/-- A key is read in front of its colon, and its value behind it. -/
theorem reads_spelledEntry {node : Node} {rest : List Char} (near : NearKey name)
    (blankGap : Blank gap) (starts : Starts text)
    (found : p.rest = Json.quote name.toList ++ ':' :: (gap ++ text))
    (inside : ∀ start : Position, start.rest = text → start.AtFlowNode ∧
      ∃ q, Reads (flowNode 0 (fuel + 2)) start node q ∧ (q.skip true).rest = rest) :
    p.AtFlowNode ∧ ∃ q, Reads (flowEntry 0 false (fuel + 4)) p
      (.scalar none .doubleQuoted name, some node) q ∧ (q.skip true).rest = rest := by
  obtain ⟨atNode, start, here, continues⟩ := @continues_spelledEntry name gap text fuel p near
    blankGap starts found
  obtain ⟨atValue, q, read, ends⟩ := inside start here
  exact ⟨atNode, q, (continues atValue).reads (Reads.bind read (reads_pure _ q)), ends⟩

end Entries

mutual
/-- A value is read from each of its spellings, up to the mark that ends its item or entry. Its
texts are those that it has when they are folded. -/
theorem reads_spelled {value : Value} {text blanks rest : List Char} {fuel : Nat} {p : Position}
    (blank : Blank blanks) (closes : Closes rest) (found : p.rest = text ++ (blanks ++ rest))
    (enough : 4 * text.length + 4 ≤ fuel) :
    Spells value text → value.Texts NearKey FoldableText →
      p.AtFlowNode ∧ ∃ q, Reads (flowNode 0 fuel) p
        (Node.styled quotedStyle (value.mapTexts foldedText)) q ∧ (q.skip true).rest = rest
  | .null, _ => reads_spelledWord flowWord_null rfl blank closes found (by omega)
  | .true, _ => reads_spelledWord (flowWord_bool true) rfl blank closes found (by omega)
  | .false, _ => reads_spelledWord (flowWord_bool false) rfl blank closes found (by omega)
  | .whole n, _ => reads_spelledWord (flowWord_whole n) rfl blank closes found (by omega)
  | .string s, foldable => by
    -- A text may go over several lines; only for a key it matters where the reader is behind it.
    obtain ⟨fuel, rfl⟩ : ∃ n, fuel = n + 3 := ⟨fuel - 3, by omega⟩
    obtain ⟨atNode, q, behind, -, read⟩ := @reads_folded fuel _ _ p _ foldable.folded? found
    rw [String.ofList_toList] at read
    exact ⟨atNode, q, read, Position.rest_skip blank closes.starts behind⟩
  | .noItems, _ => by
    obtain ⟨fuel, rfl⟩ : ∃ n, fuel = n + 3 := ⟨fuel - 3, by omega⟩
    have closed := @reads_flowItems_nil 0 fuel { p.advance 1 with fresh := false } (blanks ++ rest)
      (by simp [found])
    exact reads_spelledArray blank closes found ⟨_, closed, by simp [found]⟩
  | @Spells.items items text inner, readable => by
    rw [List.length_cons, List.length_append, List.length_singleton] at enough
    obtain ⟨fuel, rfl⟩ : ∃ n, fuel = n + 3 := ⟨fuel - 3, by omega⟩
    apply reads_spelledArray blank closes found
    exact reads_spelledItems (by simp [found]) (by omega) inner readable
  | .noFields, _ => by
    obtain ⟨fuel, rfl⟩ : ∃ n, fuel = n + 3 := ⟨fuel - 3, by omega⟩
    have closed := @reads_flowEntries_nil 0 fuel { p.advance 1 with fresh := false } (blanks ++ rest)
      (by simp [found])
    exact reads_spelledObject blank closes found ⟨_, closed, by simp [found]⟩
  | @Spells.fields fields text inner, readable => by
    rw [List.length_cons, List.length_append, List.length_singleton] at enough
    obtain ⟨fuel, rfl⟩ : ∃ n, fuel = n + 3 := ⟨fuel - 3, by omega⟩
    apply reads_spelledObject blank closes found
    exact reads_spelledFields (by simp [found]) (by omega) inner readable

private theorem reads_spelledItems {items : List Value} {text rest : List Char} {fuel : Nat}
    {p : Position}
    (found : p.rest = text ++ ']' :: rest) (enough : 4 * text.length + 8 ≤ fuel) :
    SpellsItems items text → TextsItems NearKey FoldableText items →
      ∃ q, Reads (flowItems 0 fuel) p
        (Node.styledItems quotedStyle (mapTextsItems foldedText items)) q ∧ q.rest = rest
  | @SpellsItems.last item before text after blankBefore spelled blankAfter, readable => by
    simp only [List.length_append] at enough
    obtain ⟨fuel, rfl⟩ : ∃ n, fuel = n + 2 := ⟨fuel - 2, by omega⟩
    have closes : Closes (']' :: rest) := ⟨']', rest, rfl, by simp⟩
    have start : (p.skip true).rest = text ++ (after ++ ']' :: rest) :=
      Position.rest_skip blankBefore (starts_of_spells spelled _) (by simp [found])
    obtain ⟨atNode, q, read, behind⟩ := @reads_spelled _ _ _ _ fuel _ blankAfter closes start
      (by omega) spelled readable.1
    have closing := Position.at?_of_rest behind
    have entry := @reads_flowEntry_item 0 fuel q _ _ true atNode read
      (Position.at?_of_at? closing (by decide))
    exact ⟨_, reads_flowItems_last rfl atNode entry closing, by simp [behind]⟩
  | @SpellsItems.more item others before text tail blankBefore spelled spelledOthers, readable => by
    simp only [List.length_append, List.length_cons] at enough
    obtain ⟨fuel, rfl⟩ : ∃ n, fuel = n + 2 := ⟨fuel - 2, by omega⟩
    have closes : Closes (',' :: (tail ++ ']' :: rest)) := ⟨',', _, rfl, by simp⟩
    -- The comma stands directly behind the item, so the blanks between them are none.
    have start : (p.skip true).rest = text ++ ([] ++ ',' :: (tail ++ ']' :: rest)) :=
      Position.rest_skip blankBefore (starts_of_spells spelled _) (by simp [found])
    obtain ⟨atNode, q, read, behind⟩ := @reads_spelled _ _ _ _ fuel _ Json.blank_nil closes start
      (by omega) spelled readable.1
    have comma := Position.at?_of_rest behind
    have entry := @reads_flowEntry_item 0 fuel q _ _ true atNode read
      (Position.at?_of_at? comma (by decide))
    obtain ⟨r, more, left⟩ := @reads_spelledItems _ _ rest (fuel + 1)
      { (q.skip true).advance 1 with fresh := false } (by simp [behind]) (by omega) spelledOthers
      readable.2
    exact ⟨r, (continues_flowItems rfl atNode entry comma).reads (more.bind (reads_pure _ r)), left⟩

private theorem reads_spelledFields {fields : List (String × Value)} {text rest : List Char}
    {fuel : Nat}
    {p : Position} (found : p.rest = text ++ '\x7d' :: rest) (enough : 4 * text.length + 8 ≤ fuel) :
    SpellsFields fields text → TextsFields NearKey FoldableText fields →
      ∃ q, Reads (flowEntries 0 fuel) p
        (Node.styledFields quotedStyle (mapTextsFields foldedText fields)) q ∧ q.rest = rest
  | @SpellsFields.last name value before gap text after blankBefore blankGap spelled blankAfter,
      readable => by
    obtain ⟨near, inside, -⟩ := readable
    simp only [Json.quote, List.length_append, List.length_cons, List.length_nil] at enough
    obtain ⟨fuel, rfl⟩ : ∃ n, fuel = n + 5 := ⟨fuel - 5, by omega⟩
    have closes : Closes ('\x7d' :: rest) := ⟨'\x7d', rest, rfl, by simp⟩
    have start : (p.skip true).rest =
        Json.quote name.toList ++ ':' :: (gap ++ (text ++ (after ++ '\x7d' :: rest))) :=
      Position.rest_skip blankBefore ⟨rfl, rfl, by decide⟩ (by simp [found])
    obtain ⟨atNode, q, entry, behind⟩ := @reads_spelledEntry _ _ _ fuel _ _ ('\x7d' :: rest)
      near blankGap (starts_of_spells spelled _) start
      fun _ here => reads_spelled blankAfter closes here (by omega) spelled inside
    exact ⟨_, reads_flowEntries_last rfl atNode entry rfl (Position.at?_of_rest behind),
      by simp [behind]⟩
  | @SpellsFields.more name value others before gap text tail blankBefore blankGap spelled
      spelledOthers, readable => by
    obtain ⟨near, inside, later⟩ := readable
    simp only [Json.quote, List.length_append, List.length_cons, List.length_nil] at enough
    obtain ⟨fuel, rfl⟩ : ∃ n, fuel = n + 5 := ⟨fuel - 5, by omega⟩
    have closes : Closes (',' :: (tail ++ '\x7d' :: rest)) := ⟨',', _, rfl, by simp⟩
    have start : (p.skip true).rest =
        Json.quote name.toList ++ ':' :: (gap ++ (text ++ ([] ++ ',' :: (tail ++ '\x7d' :: rest)))) :=
      Position.rest_skip blankBefore ⟨rfl, rfl, by decide⟩ (by simp [found])
    obtain ⟨atNode, q, entry, behind⟩ := @reads_spelledEntry _ _ _ fuel _ _
      (',' :: (tail ++ '\x7d' :: rest)) near blankGap (starts_of_spells spelled _) start
      fun _ here => reads_spelled Json.blank_nil closes here (by omega) spelled inside
    obtain ⟨r, more, left⟩ := @reads_spelledFields _ _ rest (fuel + 4)
      { (q.skip true).advance 1 with fresh := false } (by simp [behind]) (by omega) spelledOthers later
    have comma := Position.at?_of_rest behind
    have read := continues_flowEntries rfl atNode entry rfl comma
    exact ⟨r, read.reads (more.bind (reads_pure _ r)), left⟩
end

/-! ## Documents -/

/-- An object that stands for itself is read as an atom of a block, whatever follows. -/
private theorem reads_spelledDocument {fields : List (String × Value)} {text after : List Char}
    {fuel : Nat}
    {p : Position} (spelled : Spells (.object fields) text)
    (readable : (Value.object fields).Texts NearKey FoldableText) (found : p.rest = text ++ after)
    (enough : 4 * text.length + 4 ≤ fuel) :
    p.at? '\x7b' = true ∧ ∃ q, Reads (atom false 0 (fuel + 1) {}) p
      (Node.styled quotedStyle ((Value.object fields).mapTexts foldedText)) q ∧ q.rest = after := by
  obtain ⟨fuel, rfl⟩ : ∃ n, fuel = n + 1 := ⟨fuel - 1, by omega⟩
  cases spelled with
  | noFields =>
    have mark : p.at? '\x7b' = true := Position.at?_of_rest found
    have closed := @reads_flowEntries_nil 0 fuel { p.advance 1 with fresh := false } after
      (by simp [found])
    exact ⟨mark, _, reads_atom_entries mark closed, by simp [found]⟩
  | @fields _ text inner =>
    have mark : p.at? '\x7b' = true := Position.at?_of_rest found
    rw [List.length_cons, List.length_append, List.length_singleton] at enough
    obtain ⟨q, read, left⟩ := @reads_spelledFields _ _ after (fuel + 1)
      { p.advance 1 with fresh := false } (by simp [found]) (by omega) inner readable
    exact ⟨mark, q, reads_atom_entries mark read, left⟩

private theorem reads_jsonDocument {fields : List (String × Value)} {text after : List Char}
    {fuel : Nat}
    (spelled : Spells (.object fields) text)
    (readable : (Value.object fields).Texts NearKey FoldableText)
    (ends : after = [] ∨ after = ['\n']) (enough : 4 * text.length + 6 ≤ fuel) :
    ∃ q, Reads (document fuel) { rest := text ++ after }
      (Node.styled quotedStyle ((Value.object fields).mapTexts foldedText)) q := by
  obtain ⟨fuel, rfl⟩ : ∃ n, fuel = n + 2 := ⟨fuel - 2, by omega⟩
  generalize atStart : ({ rest := text ++ after } : Position) = p
  have found : p.rest = text ++ after := by rw [← atStart]
  obtain ⟨mark, q, read, left⟩ := reads_spelledDocument spelled readable found
    (show 4 * text.length + 4 ≤ fuel by omega)
  have atAtom := Position.atAtom_of_at? mark (by decide)
  -- Behind the closing brace there is a line end at most, and no colon in particular.
  have nothing : (q.skip false).rest = [] := by
    rcases ends with rfl | rfl
    · rw [Position.skip_of_starts (left ▸ trivial), left]
    · rw [@Position.skip_newline 0 q [] left trivial]
  have noKey : ((q.skip false).atMark ':' && isKeyAt p (q.skip false)) = false := by
    simp [Position.atMark, nothing]
  obtain ⟨r, reached, node⟩ := @reads_blockNode_unkeyed 0 fuel false p q p _
    (Position.skip_of_starts atAtom.starts) atAtom (Nat.zero_le _) read noKey
  have done : (r.skip false).rest = [] := by
    rcases reached with rfl | rfl
    · exact nothing
    · rw [Position.skip_of_starts (nothing ▸ trivial), nothing]
  exact ⟨_, reads_document_of_blockNode atAtom.starts (Position.at?_of_at? mark (by decide))
    atAtom.inside node done⟩

end Reader

/-- What a text consists of decides whether anything is read of a JSON object as YAML. -/
theorem read?_of_spells_eq {fields : List (String × Value)} {text after : List Char}
    (spelled : Spells (.object fields) text) (ends : after = [] ∨ after = ['\n']) :
    read? (String.ofList (text ++ after)) =
      if text.all isAllowed then
        (Reader.document (8 * (text ++ after).length + 64) { position := { rest := text ++ after } }).map
          (·.1)
      else none := by
  have noMark : (text ++ after).head? ≠ some '\ufeff' := by
    cases spelled <;> simp
  have same : (text ++ after).all isAllowed = text.all isAllowed := by
    rcases ends with rfl | rfl <;> simp [isAllowed]
  rw [read?_of_noMark (by simpa using noMark), String.toList_ofList, same]

/-- The tree of an object is read from its JSON, with or without a line end behind it. Its texts are
those that it has when they are folded. -/
theorem read?_of_spells {fields : List (String × Value)} {text after : List Char}
    (spelled : Spells (.object fields) text)
    (allowed : (Value.object fields).Texts AllowedText AllowedText)
    (readable : (Value.object fields).Texts NearKey FoldableText)
    (ends : after = [] ∨ after = ['\n']) :
    read? (String.ofList (text ++ after)) =
      some (Node.styled quotedStyle ((Value.object fields).mapTexts foldedText)) := by
  have enough : 4 * text.length + 6 ≤ 8 * (text ++ after).length + 64 := by
    rw [List.length_append]
    omega
  obtain ⟨q, reads⟩ := Reader.reads_jsonDocument spelled readable ends enough
  rw [read?_of_spells_eq spelled ends, if_pos ((all_allowed_iff spelled).mpr allowed)]
  exact congrArg (Option.map (·.1)) reads

end Yaml
end Blueprint
