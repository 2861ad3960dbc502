import Blueprint.Proofs.Yaml.JsonGrammar

/-!
# JSON that YAML refuses

A YAML reader finds nothing in a JSON text with a character that YAML does not allow: that is found
out before anything is read. It gives up at a text that cannot be folded, and at a key that is too
long or goes over a line end: its colon is not taken for one.
-/

namespace Blueprint.Yaml

open Json (Blank Spells SpellsItems SpellsFields)
open Value (TextsItems TextsFields AllowedText NearKey FoldableText foldedText)

namespace Reader

/-! ## Keys that are not near -/

section Entries

variable {name : String} {gap text : List Char} {fuel : Nat} {p : Position}

/-- A key that goes over a line end is refused with its entry: its colon is on another line. -/
private theorem refuses_brokenKey (broken : ¬∀ c ∈ name.toList, isBareBreak c = false)
    (found : p.rest = Json.quote name.toList ++ ':' :: (gap ++ text)) :
    p.AtFlowNode ∧ Refuses (flowEntry 0 false (fuel + 4)) p := by
  cases folds : folded? name.toList with
  | none =>
    obtain ⟨atNode, refuses⟩ := @refuses_unfoldable fuel _ _ p folds found
    exact ⟨atNode, (continues_flowEntry atNode).refuses refuses.bind⟩
  | some folded =>
    -- The key is read, but the reader stands on a later line behind it than in front of it.
    obtain ⟨atNode, q, behind, line, read⟩ := @reads_folded fuel _ _ p _ folds found
    have breaks : 0 < name.toList.countP isBareBreak := by
      rw [List.countP_pos_iff]
      simpa using broken
    have otherLine : ¬isKeyAt p q = true := by
      have below : p.line ≠ q.line := by omega
      simp [isKeyAt, below]
    have continues := @continues_flowEntry_colon 0 (fuel + 3) q p _ false atNode read
      (Position.at?_of_rest behind)
    rw [if_neg otherLine] at continues
    exact ⟨atNode, continues.refuses rfl⟩

/-- A key that is not near its colon is refused with its entry. -/
private theorem refuses_spelledKey (far : ¬NearKey name)
    (found : p.rest = Json.quote name.toList ++ ':' :: (gap ++ text)) :
    p.AtFlowNode ∧ Refuses (flowEntry 0 false (fuel + 4)) p := by
  by_cases oneLine : ∀ c ∈ name.toList, isBareBreak c = false
  · obtain ⟨atNode, q, -, isKey, continues⟩ := @continues_spelledKey name gap text fuel p oneLine found
    rw [if_neg (mt isKey.mp far)] at continues
    exact ⟨atNode, continues.refuses rfl⟩
  · exact refuses_brokenKey oneLine found

/-- An entry is refused for its key or for its value. -/
private theorem refuses_spelledEntry {value : Value}
    (unreadable : ¬(NearKey name ∧ value.Texts NearKey FoldableText)) (blankGap : Blank gap)
    (starts : Starts text) (found : p.rest = Json.quote name.toList ++ ':' :: (gap ++ text))
    (inside : ¬value.Texts NearKey FoldableText → ∀ start : Position, start.rest = text →
      start.AtFlowNode ∧ Refuses (flowNode 0 (fuel + 2)) start) :
    p.AtFlowNode ∧ Refuses (flowEntry 0 false (fuel + 4)) p := by
  by_cases near : NearKey name
  · obtain ⟨atNode, start, here, continues⟩ := @continues_spelledEntry name gap text fuel p near
      blankGap starts found
    obtain ⟨atValue, refuses⟩ := inside (fun readable => unreadable ⟨near, readable⟩) start here
    exact ⟨atNode, (continues atValue).refuses refuses.bind⟩
  · exact refuses_spelledKey near found

end Entries

mutual
/-- A value with a key that is not near or a text that cannot be folded is refused, whatever follows
it. -/
private theorem refuses_spelled {value : Value} {text rest : List Char} {fuel : Nat} {p : Position}
    (found : p.rest = text ++ rest) (enough : 4 * text.length + 4 ≤ fuel) :
    Spells value text → ¬value.Texts NearKey FoldableText →
      p.AtFlowNode ∧ Refuses (flowNode 0 fuel) p
  | .null, far | .true, far | .false, far | .whole _, far => absurd trivial far
  | .string s, unfoldable => by
    obtain ⟨fuel, rfl⟩ : ∃ n, fuel = n + 3 := ⟨fuel - 3, by omega⟩
    have refused : folded? s.toList = none := by
      simpa [Value.Texts, FoldableText] using unfoldable
    exact refuses_unfoldable refused found
  | .noItems, far | .noFields, far => absurd trivial far
  | @Spells.items items text inner, far => by
    rw [List.length_cons, List.length_append, List.length_singleton] at enough
    obtain ⟨fuel, rfl⟩ : ∃ n, fuel = n + 3 := ⟨fuel - 3, by omega⟩
    have mark : p.at? '[' = true := Position.at?_of_rest found
    have atNode := Position.atFlowNode_of_at? mark (by simp)
    have inside := @refuses_spelledItems items text rest (fuel + 1) { p.advance 1 with fresh := false }
      (by simp [found]) (by omega) inner far
    exact ⟨atNode, (continues_flowNode atNode.skip atNode).refuses
      ((continues_atom_items mark).refuses inside.bind)⟩
  | @Spells.fields fields text inner, far => by
    rw [List.length_cons, List.length_append, List.length_singleton] at enough
    obtain ⟨fuel, rfl⟩ : ∃ n, fuel = n + 3 := ⟨fuel - 3, by omega⟩
    have mark : p.at? '\x7b' = true := Position.at?_of_rest found
    have atNode := Position.atFlowNode_of_at? mark (by simp)
    have inside := @refuses_spelledFields fields text rest (fuel + 1)
      { p.advance 1 with fresh := false } (by simp [found]) (by omega) inner far
    exact ⟨atNode, (continues_flowNode atNode.skip atNode).refuses
      ((continues_atom_entries mark).refuses inside.bind)⟩

private theorem refuses_spelledItems {items : List Value} {text rest : List Char} {fuel : Nat}
    {p : Position}
    (found : p.rest = text ++ ']' :: rest) (enough : 4 * text.length + 8 ≤ fuel) :
    SpellsItems items text → ¬TextsItems NearKey FoldableText items → Refuses (flowItems 0 fuel) p
  | @SpellsItems.last item before text after blankBefore spelled blankAfter, far => by
    simp only [List.length_append] at enough
    obtain ⟨fuel, rfl⟩ : ∃ n, fuel = n + 2 := ⟨fuel - 2, by omega⟩
    have start : (p.skip true).rest = text ++ (after ++ ']' :: rest) :=
      Position.rest_skip blankBefore (starts_of_spells spelled _) (by simp [found])
    obtain ⟨atNode, refuses⟩ := @refuses_spelled _ _ _ fuel _ start (by omega) spelled
      fun readable => far ⟨readable, trivial⟩
    exact refuses_flowItems rfl atNode ((continues_flowEntry atNode).refuses refuses.bind)
  | @SpellsItems.more item others before text tail blankBefore spelled spelledOthers, far => by
    simp only [List.length_append, List.length_cons] at enough
    obtain ⟨fuel, rfl⟩ : ∃ n, fuel = n + 2 := ⟨fuel - 2, by omega⟩
    have start : (p.skip true).rest = text ++ ',' :: (tail ++ ']' :: rest) :=
      Position.rest_skip blankBefore (starts_of_spells spelled _) (by simp [found])
    by_cases readable : item.Texts NearKey FoldableText
    · -- The item is read, so it is one of the others that is refused.
      have closes : Closes (',' :: (tail ++ ']' :: rest)) := ⟨',', _, rfl, by simp⟩
      obtain ⟨atNode, q, read, behind⟩ := @reads_spelled _ _ _ _ fuel _ Json.blank_nil closes start
        (by omega) spelled readable
      have comma := Position.at?_of_rest behind
      have entry := @reads_flowEntry_item 0 fuel q _ _ true atNode read
        (Position.at?_of_at? comma (by decide))
      have later := @refuses_spelledItems others tail rest (fuel + 1)
        { (q.skip true).advance 1 with fresh := false } (by simp [behind]) (by omega) spelledOthers
        fun others => far ⟨readable, others⟩
      exact (continues_flowItems rfl atNode entry comma).refuses later.bind
    · obtain ⟨atNode, refuses⟩ := @refuses_spelled _ _ _ fuel _ start (by omega) spelled readable
      exact refuses_flowItems rfl atNode ((continues_flowEntry atNode).refuses refuses.bind)

private theorem refuses_spelledFields {fields : List (String × Value)} {text rest : List Char}
    {fuel : Nat}
    {p : Position} (found : p.rest = text ++ '\x7d' :: rest) (enough : 4 * text.length + 8 ≤ fuel) :
    SpellsFields fields text → ¬TextsFields NearKey FoldableText fields →
      Refuses (flowEntries 0 fuel) p
  | @SpellsFields.last name value before gap text after blankBefore blankGap spelled blankAfter,
      far => by
    simp only [Json.quote, List.length_append, List.length_cons, List.length_nil] at enough
    obtain ⟨fuel, rfl⟩ : ∃ n, fuel = n + 5 := ⟨fuel - 5, by omega⟩
    have start : (p.skip true).rest =
        Json.quote name.toList ++ ':' :: (gap ++ (text ++ (after ++ '\x7d' :: rest))) :=
      Position.rest_skip blankBefore ⟨rfl, rfl, by decide⟩ (by simp [found])
    have entry : ¬(NearKey name ∧ value.Texts NearKey FoldableText) := fun both =>
      far ⟨both.1, both.2, trivial⟩
    obtain ⟨atNode, refuses⟩ := @refuses_spelledEntry _ _ _ fuel _ value entry blankGap
      (starts_of_spells spelled _) start
      fun unreadable _ here => refuses_spelled here (by omega) spelled unreadable
    exact refuses_flowEntries rfl atNode refuses
  | @SpellsFields.more name value others before gap text tail blankBefore blankGap spelled
      spelledOthers, far => by
    simp only [Json.quote, List.length_append, List.length_cons, List.length_nil] at enough
    obtain ⟨fuel, rfl⟩ : ∃ n, fuel = n + 5 := ⟨fuel - 5, by omega⟩
    have start : (p.skip true).rest =
        Json.quote name.toList ++ ':' :: (gap ++ (text ++ ',' :: (tail ++ '\x7d' :: rest))) :=
      Position.rest_skip blankBefore ⟨rfl, rfl, by decide⟩ (by simp [found])
    by_cases entry : NearKey name ∧ value.Texts NearKey FoldableText
    · -- The entry is read, so it is one of the others that is refused.
      obtain ⟨near, readable⟩ := entry
      have closes : Closes (',' :: (tail ++ '\x7d' :: rest)) := ⟨',', _, rfl, by simp⟩
      obtain ⟨atNode, q, read, behind⟩ := @reads_spelledEntry _ _ _ fuel _ _
        (',' :: (tail ++ '\x7d' :: rest)) near blankGap (starts_of_spells spelled _) start
        fun _ here => reads_spelled Json.blank_nil closes here (by omega) spelled readable
      have comma := Position.at?_of_rest behind
      have later := @refuses_spelledFields others tail rest (fuel + 4)
        { (q.skip true).advance 1 with fresh := false } (by simp [behind]) (by omega) spelledOthers
        fun others => far ⟨near, readable, others⟩
      exact (continues_flowEntries rfl atNode read rfl comma).refuses later.bind
    · obtain ⟨atNode, refuses⟩ := @refuses_spelledEntry _ _ _ fuel _ value entry blankGap
        (starts_of_spells spelled _) start
        fun unreadable _ here => refuses_spelled here (by omega) spelled unreadable
      exact refuses_flowEntries rfl atNode refuses
end

/-! ## Documents -/

section Documents

variable {margin fuel : Nat} {dashes : Bool} {p start : Position}

/-- Where an atom is refused there is no node. -/
private theorem refuses_blockNode (skipped : p.skip false = start) (atAtom : start.AtAtom)
    (right : margin ≤ start.column) (refuses : Refuses (atom false margin (fuel + 1) {}) start) :
    Refuses (blockNode margin dashes (fuel + 2) {}) p := by
  have notLeft : ¬start.column < margin := by omega
  have noAnchor := atAtom.plainMarks '&' (by simp)
  have noTag := atAtom.plainMarks '!' (by simp)
  rw [blockNode]
  apply Refuses.behind (reads_skip skipped)
  simp only [atAtom.notAtEnd, atAtom.noDash, atAtom.noQuestion, notLeft, Bool.false_eq_true, if_false]
  apply Refuses.behind (reads_properties noAnchor noTag)
  simp only [Bool.false_eq_true, if_false]
  apply Refuses.behind (reads_here start)
  by_cases inner : (!start.fresh || start.at? '|' || start.at? '>') = true
  · simp only [inner, if_true]
    exact refuses
  · simp only [inner, Bool.false_eq_true, if_false]
    exact Refuses.behind (a := none) rfl refuses.bind

/-- Where a node is refused there is no document. -/
private theorem refuses_document (starts : Starts p.rest) (noDirective : p.at? '%' = false)
    (inside : p.atDocumentBoundary = false)
    (refuses : Refuses (blockNode 0 false (fuel + 1) {}) p) : Refuses (document (fuel + 1)) p := by
  rw [Position.atDocumentBoundary, Bool.or_eq_false_iff] at inside
  rw [document]
  apply Refuses.behind (reads_directives starts noDirective)
  apply Refuses.behind (reads_skip (Position.skip_of_starts starts))
  simp only [inside, Bool.false_eq_true, if_false]
  exact refuses.bind

end Documents

private theorem refuses_jsonDocument {fields : List (String × Value)} {text after : List Char}
    {fuel : Nat}
    (spelled : Spells (.object fields) text)
    (far : ¬(Value.object fields).Texts NearKey FoldableText) (enough : 4 * text.length + 6 ≤ fuel) :
    Refuses (document fuel) { rest := text ++ after } := by
  obtain ⟨fuel, rfl⟩ : ∃ n, fuel = n + 2 := ⟨fuel - 2, by omega⟩
  generalize atStart : ({ rest := text ++ after } : Position) = p
  have found : p.rest = text ++ after := by rw [← atStart]
  cases spelled with
  | noFields => exact absurd trivial far
  | @fields _ text inner =>
    simp only [List.length_cons, List.length_append, List.length_nil] at enough
    have mark : p.at? '\x7b' = true := Position.at?_of_rest found
    have atAtom := Position.atAtom_of_at? mark (by decide)
    have inside := @refuses_spelledFields fields text after fuel { p.advance 1 with fresh := false }
      (by simp [found]) (by omega) inner far
    apply refuses_document atAtom.starts (Position.at?_of_at? mark (by decide)) atAtom.inside
    apply refuses_blockNode (Position.skip_of_starts atAtom.starts) atAtom (Nat.zero_le _)
    exact (continues_atom_entries mark).refuses inside.bind

end Reader

/-- What is read of the JSON of an object, if anything is, is the object with its texts folded. -/
theorem read?_of_spells_iff {fields : List (String × Value)} {text after : List Char} {tree : Node}
    (spelled : Spells (.object fields) text) (ends : after = [] ∨ after = ['\n']) :
    read? (String.ofList (text ++ after)) = some tree ↔
      (Value.object fields).Texts AllowedText AllowedText ∧
        (Value.object fields).Texts NearKey FoldableText ∧
        Node.styled quotedStyle ((Value.object fields).mapTexts foldedText) = tree := by
  by_cases allowed : (Value.object fields).Texts AllowedText AllowedText
  · by_cases readable : (Value.object fields).Texts NearKey FoldableText
    · rw [read?_of_spells spelled allowed readable ends]
      simp [allowed, readable]
    · have refuses := @Reader.refuses_jsonDocument fields text after (8 * (text ++ after).length + 64)
        spelled readable (by rw [List.length_append]; omega)
      have nothing : Reader.document (8 * (text ++ after).length + 64)
          { position := { rest := text ++ after } } = none := refuses
      rw [read?_of_spells_eq spelled ends, nothing]
      simp [readable]
  · rw [read?_of_spells_eq spelled ends, if_neg (mt (all_allowed_iff spelled).mp allowed)]
    simp [allowed]

end Blueprint.Yaml
