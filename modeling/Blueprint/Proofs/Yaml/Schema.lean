import Blueprint.Yaml.Accessors
import Blueprint.Proofs.Yaml.Atoms

/-!
# Trees of values mean the values

The plain scalars that are written for null, truth values and whole numbers are read with their
types, so the value of a tree is the value that it was written for.
-/

namespace Blueprint.Yaml

/-! ## Digits -/

private theorem digitValue?_of_isDigit {c : Char} (isDigit : c.isDigit = true) :
    Text.digitValue? 10 c = some (c.toNat - '0'.toNat) := by
  have bounds := isDigit
  simp only [Char.isDigit, Bool.and_eq_true, decide_eq_true_eq, ge_iff_le,
    UInt32.le_iff_toNat_le] at bounds
  have high : c.toNat ≤ 57 := bounds.2
  have small : c.toNat - '0'.toNat < 10 := by
    have zero : '0'.toNat = 48 := rfl
    omega
  simp only [Text.digitValue?, isDigit, if_true]
  exact Option.filter_some_pos (by simpa using small)

private theorem natOfDigits?_of_digits {digits : List Char} (nonempty : digits ≠ [])
    (allDigits : ∀ c ∈ digits, c.isDigit = true) :
    Text.natOfDigits? 10 digits = some (Nat.ofDigitChars 10 digits 0) := by
  -- Both go over the digits from the left with the number so far.
  have folded (start : Nat) :
      digits.foldlM (fun value c => (Text.digitValue? 10 c).map (value * 10 + ·)) start =
        some (Nat.ofDigitChars 10 digits start) := by
    clear nonempty
    induction digits generalizing start with
    | nil => rfl
    | cons c digits ih =>
      obtain ⟨isDigit, others⟩ := List.forall_mem_cons.mp allDigits
      simp [digitValue?_of_isDigit isDigit, ih others, Nat.ofDigitChars, Nat.mul_comm]
  exact (Scalar.natOfDigits?_of_nonempty nonempty).trans (folded 0)

private theorem natOfDigits?_decimal (n : Nat) :
    Text.natOfDigits? 10 (Text.decimal n) = some n := by
  have nonempty : Text.decimal n ≠ [] := Nat.toDigits_ne_nil
  rw [natOfDigits?_of_digits nonempty fun _ => Json.isDigit_of_mem_decimal]
  exact congrArg some Nat.ofDigitChars_ten_toDigits

/-! ## Whole numbers -/

private theorem dropSign_decimal (n : Nat) : dropSign (Text.decimal n) = Text.decimal n := by
  obtain ⟨c, front, written⟩ := Json.exists_decimal n
  have isDigit : c.isDigit = true := Json.isDigit_of_mem_decimal (written ▸ List.mem_cons_self)
  rw [written]
  unfold dropSign
  split
  · rename_i same
    cases same
    exact absurd isDigit (by decide)
  · rename_i same
    cases same
    exact absurd isDigit (by decide)
  · rfl

/-- The digits of a number have no leading zero but their only one. -/
private theorem isPaddedDigits_decimal {text : List Char} {n : Nat}
    (unsigned : dropSign text = Text.decimal n) :
    isPaddedDigits text = false := by
  rw [isPaddedDigits, unsigned]
  rcases Nat.eq_zero_or_pos n with rfl | positive
  · decide
  · simp [Json.head?_decimal_ne_zero positive]

private theorem basedNat?_decimal (n : Nat) : basedNat? (Text.decimal n) = none := by
  have allDigits : ∀ c ∈ Text.decimal n, c.isDigit = true := fun _ => Json.isDigit_of_mem_decimal
  unfold basedNat?
  -- The mark of a base is no digit.
  split
  · rename_i written
    exact absurd (allDigits 'x' (by simp [written])) (by decide)
  · rename_i written
    exact absurd (allDigits 'o' (by simp [written])) (by decide)
  · rename_i written
    exact absurd (allDigits 'b' (by simp [written])) (by decide)
  · rfl

/-- No mark, and no letter, starts the digits of a number. -/
private theorem decimal_ne_cons {n : Nat} {c : Char} (noDigit : c.isDigit = false)
    (rest : List Char) :
    Text.decimal n ≠ c :: rest := fun written => by
  have isDigit : c.isDigit = true := Json.isDigit_of_mem_decimal (written ▸ List.mem_cons_self)
  rw [noDigit] at isDigit
  contradiction

theorem nat?_decimal (n : Nat) : nat? (Text.decimal n) = some n := by
  have noPadding := isPaddedDigits_decimal (dropSign_decimal n)
  unfold nat?
  split
  · rename_i rest written
    exact absurd written (decimal_ne_cons (by decide) rest)
  · simp [basedNat?_decimal, noPadding, natOfDigits?_decimal]

private theorem nat?_negative (n : Nat) : nat? ('-' :: Text.decimal n) = none := by
  have noPadding : isPaddedDigits ('-' :: Text.decimal n) = false := isPaddedDigits_decimal rfl
  have noDigit : Text.digitValue? 10 '-' = none := by decide
  simp [nat?, basedNat?, noPadding, Text.natOfDigits?, noDigit]

private theorem negated?_decimal (n : Nat) : negated? ('-' :: Text.decimal n) = some n := by
  have noPadding : isPaddedDigits ('-' :: Text.decimal n) = false := isPaddedDigits_decimal rfl
  simp [negated?, basedNat?_decimal, noPadding, natOfDigits?_decimal]

private theorem int?_toText (n : Whole) : int? n.toText = some (.usable n) := by
  rw [Whole.toText]
  -- A number with a sign is not taken as one without, and is then negated.
  unfold int?
  split
  -- The bounds of 128 bits are too large to rewrite around them.
  · rename_i m found
    split at found
    · rw [nat?_negative] at found
      contradiction
    · rw [nat?_decimal] at found
      have value : (m : Int) = n.value := by
        have same := Option.some.inj found
        omega
      simp [value]
  · rename_i found
    split at found
    · rename_i negative
      have value : -(n.value.natAbs : Int) = n.value := by omega
      simp only [if_pos negative, negated?_decimal, Option.bind_some, value, Whole.ofInt?_value]
    · rw [nat?_decimal] at found
      contradiction

/-! ## Plain scalars -/

/-- Whether a text starts as numbers do. -/
def StartsNumber (text : List Char) : Prop :=
  ∃ c rest, text = c :: rest ∧ (c = '-' ∨ c.isDigit = true)

private theorem startsNumber_decimal (n : Nat) : StartsNumber (Text.decimal n) := by
  obtain ⟨c, front, written⟩ := Json.exists_decimal n
  have isDigit : c.isDigit = true := Json.isDigit_of_mem_decimal (written ▸ List.mem_cons_self)
  exact ⟨c, front, written, .inr isDigit⟩

private theorem StartsNumber.append {text : List Char} (starts : StartsNumber text)
    (rest : List Char) :
    StartsNumber (text ++ rest) := by
  obtain ⟨c, front, rfl, first⟩ := starts
  exact ⟨c, front ++ rest, rfl, first⟩

private theorem StartsNumber.take {text : List Char} (starts : StartsNumber text) {count : Nat}
    (positive : 0 < count) : StartsNumber (text.take count) := by
  obtain ⟨c, front, rfl, first⟩ := starts
  obtain ⟨fewer, rfl⟩ := Nat.exists_eq_add_one.mpr positive
  exact ⟨c, front.take fewer, rfl, first⟩

private theorem startsNumber_real (layout : Binary64.Layout) (x : Binary64) :
    StartsNumber (x.toText layout) := by
  have digits := startsNumber_decimal x.shortest.digits
  -- Every layout starts with the sign, with a zero, or with a digit of the shortest number.
  rw [Binary64.toText]
  split
  · exact ⟨'-', _, rfl, .inl rfl⟩
  split
  · exact ⟨'0', _, rfl, .inr (by decide)⟩
  split
  · exact (digits.append _).append _
  split
  · rename_i inside
    exact (digits.take (by omega)).append _
  split
  · exact ⟨'0', _, rfl, .inr (by decide)⟩
  · obtain ⟨c, front, written, first⟩ := digits
    rw [written]
    cases front with
    | nil => exact ⟨c, _, rfl, first⟩
    | cons => exact ⟨c, _, rfl, first⟩

theorem startsNumber_toText (layout : Binary64.Layout) (n : Number) :
    StartsNumber (n.toText layout) := by
  cases n with
  | real x => exact startsNumber_real layout x
  | whole n =>
    rw [Number.toText, Whole.toText]
    split
    · exact ⟨'-', _, rfl, .inl rfl⟩
    · exact startsNumber_decimal _

/-- What starts as numbers do is none of the words for null and truth values. -/
theorem StartsNumber.noWord {text : List Char} (starts : StartsNumber text) :
    (text.isEmpty || isNull text) = false ∧ bool? text = none := by
  obtain ⟨c, rest, rfl, first⟩ := starts
  -- The first letter is enough to tell.
  have other : c ≠ 'n' ∧ c ≠ 'N' ∧ c ≠ '~' ∧ c ≠ 't' ∧ c ≠ 'T' ∧ c ≠ 'f' ∧ c ≠ 'F' := by
    rcases first with rfl | isDigit
    · decide
    · have noLetter : c ∉ ['n', 'N', '~', 't', 'T', 'f', 'F'] := not_mem_of_isDigit isDigit (by decide)
      simpa [and_assoc] using noLetter
  simp [isNull, bool?, other]

private theorem plainValue?_whole (n : Whole) :
    plainValue? n.toText = some (.number (.whole n)) := by
  obtain ⟨noNull, noBool⟩ := (startsNumber_toText Printer.numberLayout (.whole n)).noWord
  rw [Number.toText] at noNull noBool
  simp [plainValue?, noNull, noBool, int?_toText]

private theorem plainValue?_bool (b : Bool) :
    plainValue? (if b then "true" else "false").toList = some (.bool b) := by
  cases b <;> rfl

/-- What has a value other than null is not written as nothing or null. -/
theorem noNull_of_plainValue? {text : List Char} {value : Value}
    (read : plainValue? text = some value) (notNull : value ≠ .null) :
    (text.isEmpty || isNull text) = false := by
  by_contra isNull
  rw [plainValue?, if_pos ((Bool.eq_false_or_eq_true _).resolve_right isNull)] at read
  exact notNull (Option.some.inj read).symm

/-! ## Trees -/

/-- Styles of texts are chosen so that each text is read as itself: what is plain spells nothing
else. -/
def KeepsText (style : String → Style) : Prop :=
  ∀ s, style s = .plain → plainValue? s.toList = some (.string s)

theorem keepsText_textStyle : KeepsText textStyle :=
  fun _ => plainValue?_of_plain

theorem keepsText_doubleQuoted : KeepsText fun _ => .doubleQuoted :=
  fun _ => nofun

namespace Node

mutual
/-- The tree of a value whose texts and keys are written in chosen styles. -/
def styled (style : String → Style) : Value → Node
  | .null => .scalar none .plain "null"
  | .bool b => .scalar none .plain (if b then "true" else "false")
  | .number n => .scalar none .plain (String.ofList (n.toText Printer.numberLayout))
  | .string s => .scalar none (style s) s
  | .array items => .sequence none (styledItems style items)
  | .object fields => .mapping none (styledFields style fields)

def styledItems (style : String → Style) : List Value → List Node
  | [] => []
  | item :: rest => styled style item :: styledItems style rest

/-- The entries of the fields of an object. -/
def styledFields (style : String → Style) : List (String × Value) → List (Node × Node)
  | [] => []
  | (key, value) :: rest =>
    (.scalar none (style key) key, styled style value) :: styledFields style rest
end

mutual
/-- The tree of a value has its texts in the styles that are chosen for blocks. -/
theorem ofValue_eq_styled : (value : Value) → ofValue value = styled textStyle value
  | .null | .bool _ | .number _ | .string _ => rfl
  | .array items => congrArg (Node.sequence none) (ofItems_eq_styledItems items)
  | .object fields => congrArg (Node.mapping none) (ofFields_eq_styledFields fields)

private theorem ofItems_eq_styledItems :
    (items : List Value) → ofItems items = styledItems textStyle items
  | [] => rfl
  | item :: rest => by
    rw [ofItems, styledItems, ofValue_eq_styled item, ofItems_eq_styledItems rest]

private theorem ofFields_eq_styledFields : (fields : List (String × Value)) →
    ofFields fields = styledFields textStyle fields
  | [] => rfl
  | (key, value) :: rest => by
    rw [ofFields, styledFields, ofValue_eq_styled value, ofFields_eq_styledFields rest]
end

section Styled

variable {style : String → Style}

theorem styledItems_eq_map (items : List Value) :
    styledItems style items = items.map (styled style) := by
  induction items with
  | nil => rfl
  | cons item rest ih => rw [styledItems, ih, List.map_cons]

theorem styledFields_eq_map (fields : List (String × Value)) :
    styledFields style fields =
      fields.map fun field => (.scalar none (style field.1) field.1, styled style field.2) := by
  induction fields with
  | nil => rfl
  | cons field rest ih => rw [styledFields, ih, List.map_cons]

private theorem toValue?_null (depth : Nat) : (styled style .null).toValue? depth = some .null := by
  have read : plainValue? "null".toList = some .null := rfl
  simp only [styled, toValue?, scalarValue?, if_true, read]

private theorem toValue?_bool (depth : Nat) (b : Bool) :
    (styled style (.bool b)).toValue? depth = some (.bool b) := by
  simp only [styled, toValue?, scalarValue?, if_true, plainValue?_bool]

private theorem toValue?_whole (depth : Nat) (n : Whole) :
    (styled style (.number (.whole n))).toValue? depth = some (.number (.whole n)) := by
  simp only [styled, toValue?, scalarValue?, if_true, String.toList_ofList, Number.toText,
    plainValue?_whole]

private theorem scalarValue?_text (keeps : KeepsText style) (s : String) :
    scalarValue? none (style s) s = some (.string s) := by
  rw [scalarValue?]
  split
  · rename_i plain
    exact keeps s plain
  · rfl

mutual
/-- A canonical value with whole numbers only is the value of its tree. -/
theorem toValue?_styled (keeps : KeepsText style) {depth : Nat} : (value : Value) →
    value.Canonical → value.FloatFree → value.nesting ≤ depth →
      toValue? depth (styled style value) = some value
  | .null, _, _, _ => toValue?_null depth
  | .bool b, _, _, _ => toValue?_bool depth b
  | .number (.whole n), _, _, _ => toValue?_whole depth n
  | .number (.real _), _, floatFree, _ => floatFree.elim
  | .string s, _, _, _ => by
    rw [styled, toValue?]
    exact scalarValue?_text keeps s
  | .array items, canonical, floatFree, shallow => by
    obtain ⟨inner, rfl, bounds⟩ := Value.exists_inner shallow
    rw [styled, toValue?, itemsToValues?_styledItems keeps items canonical floatFree bounds]
    rfl
  | .object fields, canonical, floatFree, shallow => by
    obtain ⟨inner, rfl, bounds⟩ := Value.exists_inner shallow
    rw [styled, toValue?, entriesToFields?_styledFields keeps fields canonical.2 floatFree bounds]
    exact congrArg (some ∘ Value.object) (sortEntries_of_ascending canonical.1)

private theorem itemsToValues?_styledItems (keeps : KeepsText style) {depth : Nat} :
    (items : List Value) →
    Value.CanonicalItems items → Value.FloatFreeItems items → Value.nestingItems items ≤ depth →
      itemsToValues? depth (styledItems style items) = some items
  | [], _, _, _ => rfl
  | item :: rest, canonical, floatFree, shallow => by
    have bounds := Nat.max_le.mp shallow
    rw [styledItems, itemsToValues?, toValue?_styled keeps item canonical.1 floatFree.1 bounds.1,
      itemsToValues?_styledItems keeps rest canonical.2 floatFree.2 bounds.2]
    rfl

private theorem entriesToFields?_styledFields (keeps : KeepsText style) {depth : Nat} :
    (fields : List (String × Value)) → Value.CanonicalFields fields → Value.FloatFreeFields fields →
      Value.nestingFields fields ≤ depth →
        entriesToFields? depth (styledFields style fields) = some fields
  | [], _, _, _ => rfl
  | (name, value) :: rest, canonical, floatFree, shallow => by
    have bounds := Nat.max_le.mp shallow
    rw [styledFields, entriesToFields?, toValue?_styled keeps value canonical.1 floatFree.1 bounds.1,
      entriesToFields?_styledFields keeps rest canonical.2 floatFree.2 bounds.2]
    rfl
end

end Styled

/-! ## Values of trees -/

private theorem nesting_real (x : Real) : x.toValue.nesting = 0 := by
  cases x <;> rfl

private theorem nesting_plainValue? {text : List Char} {value : Value}
    (read : plainValue? text = some value) : value.nesting = 0 := by
  -- Nothing that a plain text stands for has parts.
  rw [plainValue?] at read
  split at read
  · cases read
    rfl
  split at read
  · cases read
    rfl
  split at read
  · cases read
    rfl
  · cases read
  split at read
  · cases read
    rfl
  split at read
  · cases read
    exact nesting_real _
  · cases read
    rfl

/-- A scalar has no inside, whatever its tag. -/
private theorem nesting_scalarValue? {tag? : Option String} {style : Style} {text : String}
    {value : Value}
    (read : scalarValue? tag? style text = some value) : value.nesting = 0 := by
  -- A tag chooses the type of the scalar, and none of the types has an inside.
  unfold scalarValue? at read
  dsimp only at read
  split at read
  · split at read
    · exact nesting_plainValue? read
    · cases read
      rfl
  split at read
  · cases read
  split at read
  · obtain ⟨b, -, rfl⟩ := Option.map_eq_some_iff.mp read
    rfl
  split at read
  · split at read
    · cases read
      rfl
    · cases read
  split at read
  · obtain ⟨x, -, rfl⟩ := Option.map_eq_some_iff.mp read
    exact nesting_real x
  split at read
  · split at read
    · cases read
      rfl
    · cases read
  · cases read
    rfl

mutual
/-- What is read from a tree has its keys in order and stays within the levels that are read. -/
theorem within_of_toValue? {depth : Nat} {value : Value} : (node : Node) →
    node.toValue? depth = some value → value.Within depth
  | .scalar tag? style text, read => by
    rw [toValue?] at read
    exact Value.within_of_nesting_eq_zero (nesting_scalarValue? read)
  | .sequence tag? items, read => by
    cases depth with
    | zero => cases read
    | succ inner =>
      rw [toValue?] at read
      split at read
      · cases read
      obtain ⟨values, inside, rfl⟩ := Option.map_eq_some_iff.mp read
      have within := within_of_itemsToValues? items inside
      exact Value.within_array within.1 within.2
  | .mapping tag? entries, read => by
    cases depth with
    | zero => cases read
    | succ inner =>
      rw [toValue?] at read
      split at read
      · cases read
      obtain ⟨fields, inside, rfl⟩ := Option.map_eq_some_iff.mp read
      have within := within_of_entriesToFields? entries inside
      exact Value.within_ofFields within.1 within.2
  | .endless, read => by
    cases read

private theorem within_of_itemsToValues? {depth : Nat} {values : List Value} : (items : List Node) →
    itemsToValues? depth items = some values →
      Value.CanonicalItems values ∧ Value.nestingItems values ≤ depth
  | [], read => by
    cases read
    exact ⟨trivial, Nat.zero_le _⟩
  | item :: rest, read => by
    simp only [itemsToValues?, Option.bind_eq_bind, Option.bind_eq_some_iff] at read
    obtain ⟨value, first, values, others, same⟩ := read
    cases same
    have head := within_of_toValue? item first
    have tail := within_of_itemsToValues? rest others
    exact ⟨⟨head.canonical, tail.1⟩, Nat.max_le.mpr ⟨head.shallow, tail.2⟩⟩

private theorem within_of_entriesToFields? {depth : Nat} {fields : List (String × Value)} :
    (entries : List (Node × Node)) → entriesToFields? depth entries = some fields →
      Value.CanonicalFields fields ∧ Value.nestingFields fields ≤ depth
  | [], read => by
    cases read
    exact ⟨trivial, Nat.zero_le _⟩
  | (key, node) :: rest, read => by
    simp only [entriesToFields?, Option.bind_eq_bind, Option.bind_eq_some_iff] at read
    obtain ⟨name, -, value, first, fields, others, same⟩ := read
    cases same
    have head := within_of_toValue? node first
    have tail := within_of_entriesToFields? rest others
    exact ⟨⟨head.canonical, tail.1⟩, Nat.max_le.mpr ⟨head.shallow, tail.2⟩⟩
end

end Node
end Blueprint.Yaml
