import Blueprint.Proofs.Yaml.Scalars

/-!
# The readers of blocks, one step at a time

What a reader of block collections does where a given kind of node starts: an atom is read as it is,
a key is followed by the colon and its value, and the dashes and marks of a collection each take an
item or an entry and go on behind it. Nothing is said here about how nodes are written.
-/

namespace Blueprint.Yaml

open Printer (blanks nextLine)

/-- What may stand at the start of a line: a token that is no mark between documents, or nothing. -/
structure Token (rest : List Char) : Prop where
  starts : Starts rest
  inside : ∀ p : Position, p.rest = rest → p.atDocumentBoundary = false

theorem Position.AtAtom.notAtEnd {p : Position} (atAtom : p.AtAtom) : p.atDocumentEnd = false := by
  simp [Position.atDocumentEnd, atAtom.nonempty, atAtom.inside]

@[simp] theorem Node.withTag_none (node : Node) : node.withTag none = node := by
  cases node <;> rfl

namespace Reader

variable {margin fuel : Nat} {dashes : Bool} {p q start : Position} {node : Node}

theorem reads_properties {inFlow : Bool} (noAnchor : p.at? '&' = false)
    (noTag : p.at? '!' = false) :
    Reads (properties inFlow (fuel + 1) {}) p ({}, false) p := by
  rw [properties]
  refine Reads.bind (reads_here p) ?_
  rw [noAnchor, noTag]
  rfl

/-- An atom that is no key is a node. The reader may have looked for a colon behind it. -/
theorem reads_blockNode_unkeyed (skipped : p.skip false = start) (atAtom : start.AtAtom)
    (right : margin ≤ start.column) (reads : Reads (atom false margin (fuel + 1) {}) start node q)
    (noKey : ((q.skip false).atMark ':' && isKeyAt start (q.skip false)) = false) :
    ∃ r, (r = q ∨ r = q.skip false) ∧ Reads (blockNode margin dashes (fuel + 2) {}) p node r := by
  have notLeft : ¬start.column < margin := by omega
  have noAnchor := atAtom.plainMarks '&' (by simp)
  have noTag := atAtom.plainMarks '!' (by simp)
  -- Only where a key could start does the reader look for a colon behind the atom.
  by_cases inner : (!start.fresh || start.at? '|' || start.at? '>') = true
  · refine ⟨q, .inl rfl, ?_⟩
    rw [blockNode]
    refine Reads.bind (reads_skip skipped) ?_
    simp only [atAtom.notAtEnd, atAtom.noDash, atAtom.noQuestion, notLeft, Bool.false_eq_true, if_false]
    refine Reads.bind (reads_properties noAnchor noTag) ?_
    simp only [Bool.false_eq_true, if_false]
    refine Reads.bind (reads_here start) ?_
    simp only [inner, if_true]
    exact reads
  · refine ⟨q.skip false, .inr rfl, ?_⟩
    rw [blockNode]
    refine Reads.bind (reads_skip skipped) ?_
    simp only [atAtom.notAtEnd, atAtom.noDash, atAtom.noQuestion, notLeft, Bool.false_eq_true, if_false]
    refine Reads.bind (reads_properties noAnchor noTag) ?_
    simp only [Bool.false_eq_true, if_false]
    refine Reads.bind (reads_here start) ?_
    simp only [inner, Bool.false_eq_true, if_false]
    refine Reads.bind (a := none) rfl ?_
    refine Reads.bind reads ?_
    refine Reads.bind (reads_skip rfl) ?_
    have both : ({} : Properties).and? {} = some {} := rfl
    have bare : ({} : Properties).isEmpty = true := rfl
    simp only [noKey, both, bare, Bool.not_true, Bool.and_false, Bool.false_eq_true, if_false]
    rw [Node.withTag_none]
    exact Reads.bind (a := ()) rfl (reads_pure node _)

/-- An atom is a node unless a colon follows it on its line. -/
theorem reads_blockNode_atom {column : Nat} {rest : List Char} (skipped : p.skip false = start)
    (atAtom : start.AtAtom) (right : margin ≤ start.column)
    (reads : Reads (atom false margin (fuel + 1) {}) start node q)
    (below : q.Below start.line column rest) (starts : Starts rest) :
    ∃ q, Reads (blockNode margin dashes (fuel + 2) {}) p node q ∧ q.Below start.line column rest := by
  -- A colon further down does not make a key of the atom.
  have noKey : ((q.skip false).atMark ':' && isKeyAt start (q.skip false)) = false := by
    simp [isKeyAt, Nat.ne_of_lt below.line]
  obtain ⟨r, rfl | rfl, read⟩ := @reads_blockNode_unkeyed margin fuel dashes p q start node skipped
    atAtom right reads noKey
  · exact ⟨r, read, below⟩
  · exact ⟨_, read, below.skip starts⟩

/-- An atom that a colon follows on its line is the first key of a mapping. -/
theorem reads_blockNode_key {first value : Node} {entries : List (Node × Node)} {r s : Position}
    (skipped : p.skip false = start) (atAtom : start.AtAtom) (right : margin ≤ start.column)
    (fresh : start.fresh = true) (noBlock : start.at? '|' = false ∧ start.at? '>' = false)
    (key : Reads (atom false margin (fuel + 1) {}) start first q) (colon : q.skip false = q)
    (atColon : q.atMark ':' = true) (isKey : isKeyAt start q = true)
    (inside : Reads (blockNode (start.column + 1) true (fuel + 1) {})
      { q.advance 1 with fresh := false } value r)
    (more : Reads (moreEntries start.column (fuel + 1)) r entries s) :
    Reads (blockNode margin dashes (fuel + 2) {}) p (.mapping none ((first, value) :: entries)) s := by
  have notLeft : ¬start.column < margin := by omega
  have noAnchor := atAtom.plainMarks '&' (by simp)
  have noTag := atAtom.plainMarks '!' (by simp)
  rw [blockNode]
  refine Reads.bind (reads_skip skipped) ?_
  simp only [atAtom.notAtEnd, atAtom.noDash, atAtom.noQuestion, notLeft, Bool.false_eq_true, if_false]
  refine Reads.bind (reads_properties noAnchor noTag) ?_
  simp only [Bool.false_eq_true, if_false]
  refine Reads.bind (reads_here start) ?_
  -- The key stands at the front of its line and is no block scalar, so the reader looks for the
  -- colon.
  simp only [fresh, noBlock, Bool.not_true, Bool.or_self, Bool.false_eq_true, if_false]
  refine Reads.bind (a := none) rfl ?_
  refine Reads.bind key ?_
  refine Reads.bind (reads_skip colon) ?_
  simp only [atColon, isKey, Bool.and_self, if_true]
  refine Reads.bind (reads_goOver 1 false q) ?_
  refine Reads.bind inside ?_
  refine Reads.bind more ?_
  exact Reads.bind (a := ()) rfl (reads_pure _ s)

/-! ## Sequences -/

section Sequences

variable {column : Nat} {items : List Node}

theorem reads_blockNode_dash (skipped : p.skip false = start) (notAtEnd : start.atDocumentEnd = false)
    (right : margin ≤ start.column) (fresh : start.fresh = true) (dash : start.atMark '-' = true)
    (inside : Reads (blockItems start.column fuel) start items q) :
    Reads (blockNode margin dashes (fuel + 1) {}) p (.sequence none items) q := by
  have notLeft : ¬start.column < margin := by omega
  rw [blockNode]
  refine Reads.bind (reads_skip skipped) ?_
  simp only [notAtEnd, notLeft, dash, fresh, Bool.not_true, Bool.false_eq_true, if_false, if_true]
  exact reads_named (Reads.bind inside rfl)

/-- The sequence of a key may stand in the column of the key. -/
theorem reads_blockNode_dashes (skipped : p.skip false = start)
    (notAtEnd : start.atDocumentEnd = false) (left : start.column + 1 = margin)
    (fresh : start.fresh = true) (dash : start.atMark '-' = true)
    (inside : Reads (dashItems start.column margin fuel) start items q) :
    Reads (blockNode margin true (fuel + 1) {}) p (.sequence none items) q := by
  have isLeft : start.column < margin := by omega
  rw [blockNode]
  refine Reads.bind (reads_skip skipped) ?_
  simp only [notAtEnd, isLeft, left, dash, fresh, beq_self_eq_true, Bool.and_self, Bool.not_true,
    Bool.false_eq_true, if_false, if_true]
  exact reads_named (Reads.bind inside rfl)

theorem reads_blockItems_end
    (ends : (p.skip false).atDocumentEnd = true ∨ (p.skip false).column < column) :
    Reads (blockItems column (fuel + 1)) p [] (p.skip false) := by
  -- Whatever the items are, the reader is left at the next token, not in front of the line ends.
  rw [blockItems]
  refine Reads.bind (reads_skip rfl) ?_
  simp only [Bool.or_eq_true, decide_eq_true_eq, ends, if_true]
  exact reads_pure [] _

theorem reads_blockItems_cons (skipped : p.skip false = start)
    (notAtEnd : start.atDocumentEnd = false) (here : start.column = column)
    (fresh : start.fresh = true) (dash : start.atMark '-' = true)
    (item : Reads (blockNode (column + 1) false fuel {}) { start.advance 1 with fresh := true } node q)
    {r : Position} (more : Reads (blockItems column fuel) q items r) :
    Reads (blockItems column (fuel + 1)) p (node :: items) r := by
  rw [blockItems]
  refine Reads.bind (reads_skip skipped) ?_
  simp only [notAtEnd, here, fresh, dash, Nat.lt_irrefl, decide_false, Bool.or_self, beq_self_eq_true,
    Bool.and_self, Bool.not_true, Bool.false_eq_true, if_false]
  refine Reads.bind (reads_goOver 1 true start) ?_
  refine Reads.bind item ?_
  exact Reads.bind more rfl

theorem reads_dashItems_end (ends : (p.skip false).atDocumentEnd = true ∨
      (p.skip false).column ≠ column ∨ (p.skip false).atMark '-' = false) :
    Reads (dashItems column margin (fuel + 1)) p [] (p.skip false) := by
  rw [dashItems]
  refine Reads.bind (reads_skip rfl) ?_
  rw [if_neg]
  · exact reads_pure [] _
  · rcases ends with ends | ends | ends <;> simp [ends]

theorem reads_dashItems_cons (skipped : p.skip false = start)
    (notAtEnd : start.atDocumentEnd = false) (here : start.column = column)
    (fresh : start.fresh = true) (dash : start.atMark '-' = true)
    (item : Reads (blockNode margin false fuel {}) { start.advance 1 with fresh := true } node q)
    {r : Position} (more : Reads (dashItems column margin fuel) q items r) :
    Reads (dashItems column margin (fuel + 1)) p (node :: items) r := by
  rw [dashItems]
  refine Reads.bind (reads_skip skipped) ?_
  simp only [notAtEnd, here, fresh, dash, beq_self_eq_true, Bool.and_self, Bool.not_false, if_true]
  refine Reads.bind (reads_goOver 1 true start) ?_
  refine Reads.bind item ?_
  exact Reads.bind more rfl

end Sequences

/-! ## Mappings -/

section Mappings

variable {column : Nat} {entries : List (Node × Node)}

theorem reads_blockNode_question (skipped : p.skip false = start)
    (notAtEnd : start.atDocumentEnd = false) (right : margin ≤ start.column)
    (fresh : start.fresh = true) (noDash : start.atMark '-' = false)
    (question : start.atMark '?' = true)
    (inside : Reads (blockEntries start.column fuel) start entries q) :
    Reads (blockNode margin dashes (fuel + 1) {}) p (.mapping none entries) q := by
  have notLeft : ¬start.column < margin := by omega
  rw [blockNode]
  refine Reads.bind (reads_skip skipped) ?_
  simp only [notAtEnd, notLeft, noDash, question, fresh, Bool.not_true, Bool.false_eq_true, if_false,
    if_true]
  exact reads_named (Reads.bind inside rfl)

theorem reads_moreEntries_end
    (ends : (p.skip false).atDocumentEnd = true ∨ (p.skip false).column < column) :
    Reads (moreEntries column (fuel + 1)) p [] (p.skip false) := by
  rw [moreEntries]
  refine Reads.bind (reads_skip rfl) ?_
  simp only [Bool.or_eq_true, decide_eq_true_eq, ends, if_true]
  exact reads_pure [] _

theorem reads_moreEntries (skipped : p.skip false = start)
    (notAtEnd : start.atDocumentEnd = false) (here : start.column = column)
    (inside : Reads (blockEntries column fuel) start entries q) :
    Reads (moreEntries column (fuel + 1)) p entries q := by
  rw [moreEntries]
  refine Reads.bind (reads_skip skipped) ?_
  simp only [notAtEnd, here, Nat.lt_irrefl, decide_false, Bool.or_self, Bool.false_eq_true, if_false]
  exact inside

/-- An entry whose key is written with a question mark. -/
theorem reads_blockEntries_question {key value : Node} {r s t : Position}
    (skipped : p.skip false = start) (here : start.column = column) (fresh : start.fresh = true)
    (question : start.atMark '?' = true)
    (first : Reads (blockNode (column + 1) true fuel {}) { start.advance 1 with fresh := true } key q)
    (behind : q.skip false = r) (notAtEnd : r.atDocumentEnd = false) (below : r.column = column)
    (again : r.fresh = true) (colon : r.atMark ':' = true)
    (inside : Reads (blockNode (column + 1) true fuel {}) { r.advance 1 with fresh := true } value s)
    (more : Reads (moreEntries column fuel) s entries t) :
    Reads (blockEntries column (fuel + 1)) p ((key, value) :: entries) t := by
  rw [blockEntries]
  refine Reads.bind (reads_skip skipped) ?_
  simp only [here, fresh, question, beq_self_eq_true, Bool.and_self, Bool.not_true,
    Bool.false_eq_true, if_false, if_true]
  refine Reads.bind (reads_goOver 1 true start) ?_
  refine Reads.bind first ?_
  refine Reads.bind (reads_skip behind) ?_
  simp only [notAtEnd, below, again, colon, beq_self_eq_true, Bool.and_self, Bool.not_true,
    Bool.not_false, Bool.false_eq_true, if_false, if_true]
  refine Reads.bind (reads_goOver 1 true r) ?_
  refine Reads.bind inside ?_
  exact Reads.bind more rfl

/-- An entry whose key is an atom. -/
theorem reads_blockEntries_key {key value : Node} {r s : Position} (skipped : p.skip false = start)
    (here : start.column = column) (fresh : start.fresh = true) (atAtom : start.AtAtom)
    (first : Reads (atom false (column + 1) (fuel + 1) {}) start key q) (colon : q.skip false = q)
    (atColon : q.atMark ':' = true) (isKey : isKeyAt start q = true)
    (inside : Reads (blockNode (column + 1) true (fuel + 1) {})
      { q.advance 1 with fresh := false } value r)
    (more : Reads (moreEntries column (fuel + 1)) r entries s) :
    Reads (blockEntries column (fuel + 2)) p ((key, value) :: entries) s := by
  have noAnchor := atAtom.plainMarks '&' (by simp)
  have noTag := atAtom.plainMarks '!' (by simp)
  rw [blockEntries]
  refine Reads.bind (reads_skip skipped) ?_
  simp only [here, fresh, atAtom.noQuestion, beq_self_eq_true, Bool.and_self, Bool.not_true,
    Bool.false_eq_true, if_false]
  refine Reads.bind (reads_properties noAnchor noTag) ?_
  simp only [Bool.false_eq_true, if_false]
  refine Reads.bind (reads_here start) ?_
  refine Reads.bind first ?_
  refine Reads.bind (reads_skip colon) ?_
  simp only [atColon, isKey, Bool.and_self, Bool.not_true, Bool.false_eq_true, if_false]
  refine Reads.bind (reads_goOver 1 false q) ?_
  refine Reads.bind inside ?_
  exact Reads.bind more rfl

end Mappings

end Reader
end Blueprint.Yaml
