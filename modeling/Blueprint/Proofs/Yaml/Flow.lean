import Blueprint.Proofs.Yaml.Blocks

/-!
# The readers of flow collections, one step at a time

What a reader of flow collections does where a given part starts: a bracket or a brace opens a
collection, an item is a node, a key is followed by its colon and its value, and a comma or the
closing mark ends each of them. Between the parts anything may stand that is skipped. Each step is
said once, as what the reader goes on with (`Continues`): what is read follows from it, and what is
refused too.
-/

namespace Blueprint.Yaml

/-- A place in a flow collection where a node starts that has neither a name nor a tag. -/
structure Position.AtFlowNode (p : Position) : Prop where
  starts : Starts p.rest
  notAtEnd : p.atDocumentEnd = false
  noMarks : ∀ c ∈ ['&', '!', '?', ',', ']', '\x7d'], p.at? c = false

theorem Position.AtFlowNode.skip {p : Position} (atNode : p.AtFlowNode) : p.skip true = p :=
  skip_of_starts atNode.starts

theorem Position.at?_of_rest {p : Position} {c : Char} {rest : List Char} (found : p.rest = c :: rest) :
    p.at? c = true := by
  simp [at?, found]

/-- A mark of a flow collection, or a colon behind a quoted key, is skipped to and not over. -/
private theorem Position.skip_of_at? {p : Position} {c : Char} (mark : p.at? c = true)
    (isMark : c ∈ [':', ',', ']', '\x7d']) : p.skip true = p := by
  apply skip_of_starts
  cases here : p.rest with
  | nil => exact trivial
  | cons d rest =>
    obtain rfl : d = c := by simpa [at?, here] using mark
    simp only [List.mem_cons, List.not_mem_nil, or_false] at isMark
    rcases isMark with rfl | rfl | rfl | rfl <;> exact ⟨rfl, rfl, by decide⟩

namespace Reader

/-! ## Going on and giving up -/

section Steps

variable {α β : Type} {reader next : Reader α} {p q r : Position} {a : α}

/-- From one place on, a reader does what another one does from another place on. -/
def Continues (reader : Reader α) (p : Position) (next : Reader α) (q : Position) : Prop :=
  reader { position := p } = next { position := q }

/-- A reader finds nothing at a place. -/
def Refuses (reader : Reader α) (p : Position) : Prop :=
  reader { position := p } = none

theorem Continues.reads (continues : Continues reader p next q) (reads : next.Reads q a r) :
    reader.Reads p a r :=
  Eq.trans continues reads

theorem Continues.refuses (continues : Continues reader p next q) (refuses : next.Refuses q) :
    reader.Refuses p :=
  Eq.trans continues refuses

private theorem continues_self (reader : Reader α) (p : Position) :
    Continues reader p reader p := rfl

/-- What is read first decides with what the reader goes on. -/
private theorem Continues.bind {after : α → Reader β} {next : Reader β} (first : reader.Reads p a q)
    (continues : Continues (after a) q next r) : Continues (reader >>= after) p next r := by
  have first : reader { position := p } = some (a, { position := q }) := first
  show (reader { position := p }).bind (fun x => after x.1 x.2) = _
  rw [first]
  exact continues

/-- What comes later does not change how a reader goes on. -/
theorem Continues.andThen (continues : Continues reader p next q) (after : α → Reader β) :
    Continues (reader >>= after) p (next >>= after) q := by
  have continues : reader { position := p } = next { position := q } := continues
  show (reader { position := p }).bind (fun x => after x.1 x.2) = _
  rw [continues]
  rfl

theorem Refuses.bind {after : α → Reader β} (refuses : reader.Refuses p) :
    (reader >>= after).Refuses p := by
  have refuses : reader { position := p } = none := refuses
  show (reader { position := p }).bind (fun x => after x.1 x.2) = none
  rw [refuses]
  rfl

theorem Refuses.behind {after : α → Reader β} (first : reader.Reads p a q)
    (refuses : (after a).Refuses q) : (reader >>= after).Refuses p :=
  (Continues.bind first (continues_self _ _)).refuses refuses

private theorem named_bare (build : Option String → Reader Node) : named {} build = build none := by
  funext s
  show ((build none) s).bind (fun x => some (x.1, x.2)) = build none s
  cases build none s <;> rfl

end Steps

variable {inFlow : Bool} {margin fuel : Nat} {p q r s start : Position} {node key value : Node}

/-! ## Nodes -/

/-- A bracket opens a flow sequence. -/
theorem continues_atom_items (mark : p.at? '[' = true) :
    Continues (atom inFlow margin (fuel + 1) {}) p
      (do return .sequence none (← flowItems margin fuel)) { p.advance 1 with fresh := false } := by
  have noAlias : p.at? '*' = false := Position.at?_of_at? mark (by decide)
  rw [atom]
  apply Continues.bind (reads_here p)
  simp only [noAlias, mark, Bool.false_eq_true, if_false, if_true]
  apply Continues.bind (reads_goOver 1 false p)
  rw [named_bare]
  exact continues_self _ _

/-- A brace opens a flow mapping. -/
theorem continues_atom_entries (mark : p.at? '\x7b' = true) :
    Continues (atom inFlow margin (fuel + 1) {}) p
      (do return .mapping none (← flowEntries margin fuel)) { p.advance 1 with fresh := false } := by
  have noAlias : p.at? '*' = false := Position.at?_of_at? mark (by decide)
  have noItems : p.at? '[' = false := Position.at?_of_at? mark (by decide)
  rw [atom]
  apply Continues.bind (reads_here p)
  simp only [noAlias, noItems, mark, Bool.false_eq_true, if_false, if_true]
  apply Continues.bind (reads_goOver 1 false p)
  rw [named_bare]
  exact continues_self _ _

theorem reads_atom_items {items : List Node} (mark : p.at? '[' = true)
    (inside : Reads (flowItems margin fuel) { p.advance 1 with fresh := false } items q) :
    Reads (atom inFlow margin (fuel + 1) {}) p (.sequence none items) q :=
  (continues_atom_items mark).reads (Reads.bind inside (reads_pure _ q))

theorem reads_atom_entries {entries : List (Node × Node)} (mark : p.at? '\x7b' = true)
    (inside : Reads (flowEntries margin fuel) { p.advance 1 with fresh := false } entries q) :
    Reads (atom inFlow margin (fuel + 1) {}) p (.mapping none entries) q :=
  (continues_atom_entries mark).reads (Reads.bind inside (reads_pure _ q))

/-- A node of a flow collection is an atom behind whatever is skipped. -/
theorem continues_flowNode (skipped : p.skip true = start) (atNode : start.AtFlowNode) :
    Continues (flowNode margin (fuel + 3)) p (atom true margin (fuel + 2) {}) start := by
  have noAnchor := atNode.noMarks '&' (by simp)
  have noTag := atNode.noMarks '!' (by simp)
  have bare : ({} : Properties).isEmpty = true := rfl
  have noProperties : Reads (flowProperties (fuel + 2) {}) start ({}, false) start := by
    rw [flowProperties]
    exact Reads.bind (reads_properties noAnchor noTag) (reads_pure _ start)
  rw [flowNode]
  apply Continues.bind (reads_skip skipped)
  apply Continues.bind noProperties
  apply Continues.bind (reads_here start)
  simp only [atNode.notAtEnd, bare, Bool.not_true, Bool.false_and, Bool.false_eq_true, if_false]
  exact continues_self _ _

/-! ## Entries -/

/-- Behind the colon of a key stands its value. -/
theorem continues_flowValue (colon : p.at? ':' = true)
    (behind : ({ p.advance 1 with fresh := false } : Position).skip true = start)
    (atNode : start.AtFlowNode) :
    Continues (flowValue margin (fuel + 1)) p (flowNode margin fuel) start := by
  rw [flowValue]
  apply Continues.bind (reads_skip (Position.skip_of_at? colon (by simp)))
  simp only [colon, if_true]
  apply Continues.bind (reads_goOver 1 false p)
  apply Continues.bind (reads_skip behind)
  have noMark : (start.at? ',' || start.at? ']' || start.at? '\x7d') = false := by
    simp [atNode.noMarks]
  simp only [noMark, Bool.false_eq_true, if_false]
  exact continues_self _ _

section Entries

variable {inSequence : Bool}

/-- An entry starts with a node, and what follows the node decides what it is. -/
theorem continues_flowEntry (atNode : start.AtFlowNode) :
    Continues (flowEntry margin inSequence (fuel + 1)) start
      (flowNode margin fuel >>= fun node => do
        let p ← skip true
        if p.at? ':' then
          if isKeyAt start p then return (node, some (← flowValue margin fuel)) else failure
        else return (node, none)) start := by
  have noQuestion := atNode.noMarks '?' (by simp)
  rw [flowEntry]
  apply Continues.bind (reads_skip atNode.skip)
  simp only [atNode.notAtEnd, noQuestion, Bool.false_eq_true, if_false]
  exact continues_self _ _

/-- A node that no colon follows is an entry of its own. -/
theorem reads_flowEntry_item (atNode : start.AtFlowNode)
    (reads : Reads (flowNode margin fuel) start node q) (noColon : (q.skip true).at? ':' = false) :
    Reads (flowEntry margin inSequence (fuel + 1)) start (node, none) (q.skip true) := by
  apply (continues_flowEntry atNode).reads
  apply Reads.bind reads
  apply Reads.bind (reads_skip rfl)
  simp only [noColon, Bool.false_eq_true, if_false]
  exact reads_pure _ _

/-- A node that a colon follows is a key, if it is on the line of the colon and short enough. -/
theorem continues_flowEntry_colon (atNode : start.AtFlowNode)
    (reads : Reads (flowNode margin fuel) start key q) (colon : q.at? ':' = true) :
    Continues (flowEntry margin inSequence (fuel + 1)) start
      (if isKeyAt start q then do return (key, some (← flowValue margin fuel)) else failure) q := by
  refine Eq.trans (continues_flowEntry atNode) (Continues.bind reads ?_)
  apply Continues.bind (reads_skip (Position.skip_of_at? colon (by simp)))
  simp only [colon, if_true]
  exact continues_self _ _

end Entries

/-! ## Sequences -/

theorem reads_flowItems_nil {after : List Char} (found : p.rest = ']' :: after) :
    Reads (flowItems margin (fuel + 1)) p [] { p.advance 1 with fresh := false } := by
  have mark := Position.at?_of_rest found
  rw [flowItems]
  apply Reads.bind (reads_skip (Position.skip_of_at? mark (by simp)))
  rw [if_pos mark]
  exact Reads.bind (reads_goOver 1 false p) (reads_pure [] _)

/-- A flow sequence is refused for its first item. -/
theorem refuses_flowItems (skipped : p.skip true = start) (atNode : start.AtFlowNode)
    (item : Refuses (flowEntry margin true fuel) start) :
    Refuses (flowItems margin (fuel + 1)) p := by
  have notClosed := atNode.noMarks ']' (by simp)
  rw [flowItems]
  apply Refuses.behind (reads_skip skipped)
  simp only [notClosed, Bool.false_eq_true, if_false]
  exact item.bind

/-- The last item stands in front of the closing bracket. -/
theorem reads_flowItems_last (skipped : p.skip true = start) (atNode : start.AtFlowNode)
    (item : Reads (flowEntry margin true fuel) start (node, none) q) (closing : q.at? ']' = true) :
    Reads (flowItems margin (fuel + 1)) p [node] { q.advance 1 with fresh := false } := by
  have notClosed := atNode.noMarks ']' (by simp)
  have noComma : q.at? ',' = false := Position.at?_of_at? closing (by decide)
  rw [flowItems]
  apply Reads.bind (reads_skip skipped)
  simp only [notClosed, Bool.false_eq_true, if_false]
  apply Reads.bind item
  apply Reads.bind (reads_skip (Position.skip_of_at? closing (by simp)))
  simp only [noComma, closing, Bool.false_eq_true, if_false, if_true]
  exact Reads.bind (reads_goOver 1 false q) (reads_pure _ _)

/-- Behind a comma stand further items. -/
theorem continues_flowItems (skipped : p.skip true = start)
    (atNode : start.AtFlowNode) (item : Reads (flowEntry margin true fuel) start (node, none) q)
    (comma : q.at? ',' = true) :
    Continues (flowItems margin (fuel + 1)) p (do return node :: (← flowItems margin fuel))
      { q.advance 1 with fresh := false } := by
  have notClosed := atNode.noMarks ']' (by simp)
  rw [flowItems]
  apply Continues.bind (reads_skip skipped)
  simp only [notClosed, Bool.false_eq_true, if_false]
  apply Continues.bind item
  apply Continues.bind (reads_skip (Position.skip_of_at? comma (by simp)))
  simp only [comma, if_true]
  exact Continues.bind (reads_goOver 1 false q) (continues_self _ _)

/-! ## Mappings -/

theorem reads_flowEntries_nil {after : List Char} (found : p.rest = '\x7d' :: after) :
    Reads (flowEntries margin (fuel + 1)) p [] { p.advance 1 with fresh := false } := by
  have mark := Position.at?_of_rest found
  rw [flowEntries]
  apply Reads.bind (reads_skip (Position.skip_of_at? mark (by simp)))
  rw [if_pos mark]
  exact Reads.bind (reads_goOver 1 false p) (reads_pure [] _)

/-- A flow mapping is refused for its first entry. -/
theorem refuses_flowEntries (skipped : p.skip true = start) (atNode : start.AtFlowNode)
    (entry : Refuses (flowEntry margin false fuel) start) :
    Refuses (flowEntries margin (fuel + 1)) p := by
  have notClosed := atNode.noMarks '\x7d' (by simp)
  rw [flowEntries]
  apply Refuses.behind (reads_skip skipped)
  simp only [notClosed, Bool.false_eq_true, if_false]
  exact entry.bind

/-- The last entry stands in front of the closing brace. -/
theorem reads_flowEntries_last (skipped : p.skip true = start) (atNode : start.AtFlowNode)
    (entry : Reads (flowEntry margin false fuel) start (key, some value) q)
    (behind : q.skip true = r) (closing : r.at? '\x7d' = true) :
    Reads (flowEntries margin (fuel + 1)) p [(key, value)] { r.advance 1 with fresh := false } := by
  have notClosed := atNode.noMarks '\x7d' (by simp)
  have noComma : r.at? ',' = false := Position.at?_of_at? closing (by decide)
  rw [flowEntries]
  apply Reads.bind (reads_skip skipped)
  simp only [notClosed, Bool.false_eq_true, if_false]
  apply Reads.bind entry
  apply Reads.bind (reads_skip behind)
  simp only [noComma, closing, Bool.false_eq_true, if_false, if_true]
  exact Reads.bind (reads_goOver 1 false r) (reads_pure _ _)

/-- Behind a comma stand further entries. -/
theorem continues_flowEntries (skipped : p.skip true = start) (atNode : start.AtFlowNode)
    (entry : Reads (flowEntry margin false fuel) start (key, some value) q)
    (behind : q.skip true = r) (comma : r.at? ',' = true) :
    Continues (flowEntries margin (fuel + 1)) p
      (do return (key, value) :: (← flowEntries margin fuel)) { r.advance 1 with fresh := false } := by
  have notClosed := atNode.noMarks '\x7d' (by simp)
  rw [flowEntries]
  apply Continues.bind (reads_skip skipped)
  simp only [notClosed, Bool.false_eq_true, if_false]
  apply Continues.bind entry
  apply Continues.bind (reads_skip behind)
  simp only [comma, if_true]
  exact Continues.bind (reads_goOver 1 false r) (continues_self _ _)

end Reader
end Blueprint.Yaml
