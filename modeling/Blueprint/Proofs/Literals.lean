import Blueprint.Proofs.Interface.Agreement
import Blueprint.Proofs.Text
import Blueprint.Proofs.Value

/-!
# What literals denote

A value can be written down in many ways: its strings as they are, as templates or as heredocs, the
keys of its objects as names or as literals and in any order, and everything but a key in
parentheses (`Denotes`). An expression that denotes a value is read as that value, and this is the
default of a variable for which the expression is given.
-/

namespace Blueprint.Hcl

/-! ## Values of expressions -/

namespace Expr

mutual
/-- The value of an expression has its keys in order, in whatever order the expression has them. -/
theorem canonical_toValue : (e : Expr) → e.toValue.Canonical
  | null | bool _ | number _ | string _ => trivial
  | array items => canonical_itemValues items
  | object entries => Value.canonical_ofFields (canonical_entryValues entries)
  | paren inner => canonical_toValue inner
  | template _ | heredoc _ | ident _ | traversal .. | call .. | conditional .. | unary ..
  | binary .. | forEach .. => trivial

private theorem canonical_itemValues : (items : List Expr) → Value.CanonicalItems (itemValues items)
  | [] => trivial
  | item :: rest => ⟨canonical_toValue item, canonical_itemValues rest⟩

private theorem canonical_entryValues : (entries : List (Key × Expr)) →
    Value.CanonicalFields (entryValues entries)
  | [] => trivial
  | (_, value) :: rest => ⟨canonical_toValue value, canonical_entryValues rest⟩
end

end Expr

/-! ## Texts -/

/-- In a text, neither of the marks stands that code in a template begins with. -/
def CodeFree (text : String) : Prop :=
  ¬ ['$', '\x7b'] <:+: text.toList ∧ ¬ ['%', '\x7b'] <:+: text.toList

/-- An expression is a literal of a text. Line feeds at the end of a heredoc are not part of its
text. -/
inductive TextLiteral : Expr → String → Prop where
  | plain (text : String) : TextLiteral (.string text) text
  | template {text : String} : CodeFree text → TextLiteral (.template text) text
  | heredoc {indented : Bool} {delimiter text : String} (feeds : Nat) :
      text.toList.getLast? ≠ some '\n' → CodeFree text →
      TextLiteral (.heredoc ⟨indented, delimiter,
        text ++ String.ofList (List.replicate feeds '\n')⟩) text

private theorem plainText?_eq_some {text : String} (codeFree : CodeFree text) :
    Expr.plainText? text = some text := by
  have absent : ¬ (Text.contains ['$', '\x7b'] text.toList ||
      Text.contains ['%', '\x7b'] text.toList) = true := by
    rw [Bool.or_eq_true, Text.contains_iff, Text.contains_iff, not_or]
    exact codeFree
  rw [Expr.plainText?, if_neg absent]

private theorem dropLineFeeds_append {text : String} (ends : text.toList.getLast? ≠ some '\n')
    (feeds : Nat) :
    Expr.dropLineFeeds (text ++ String.ofList (List.replicate feeds '\n')) = text := by
  rw [Expr.dropLineFeeds, String.toList_append, String.toList_ofList, Text.dropEndWhile_append,
    String.ofList_toList]
  · rintro c last
    rw [beq_eq_false_iff_ne]
    rintro rfl
    exact ends last
  · intro c member
    rw [List.eq_of_mem_replicate member, beq_self_eq_true]

namespace TextLiteral

variable {e : Expr} {text : String}

private theorem literalString?_eq (literal : TextLiteral e text) :
    e.literalString? = some text := by
  cases literal with
  | plain => rfl
  | template codeFree => exact plainText?_eq_some codeFree
  | heredoc feeds ends codeFree =>
    rw [Expr.literalString?, dropLineFeeds_append ends, plainText?_eq_some codeFree]

private theorem scalarText?_eq (literal : TextLiteral e text) : e.scalarText? = some text := by
  have read := literal.literalString?_eq
  cases literal <;> exact read

private theorem toValue_eq (literal : TextLiteral e text) : e.toValue = .string text := by
  have read := literal.literalString?_eq
  cases literal with
  | plain => rfl
  | template | heredoc => rw [Expr.toValue, read, Option.getD_some]

end TextLiteral

/-! ## Keys -/

/-- A key is a name or a literal, and this is its text. -/
inductive KeyLiteral : Key → String → Prop where
  | name (text : String) : KeyLiteral (.name text) text
  | text {e : Expr} {text : String} : TextLiteral e text → KeyLiteral (.expr e) text
  | whole (n : Whole) : KeyLiteral (.expr (.number (.whole n))) (toString n.value)
  | real (x : Binary64) :
      KeyLiteral (.expr (.number (.real x))) (String.ofList (x.toText Expr.numberLayout))
  | bool (b : Bool) : KeyLiteral (.expr (.bool b)) (toString b)

/-- A whole number is written with its decimal digits. -/
private theorem ofList_toText (n : Whole) : String.ofList n.toText = toString n.value := by
  obtain ⟨value, inRange⟩ := n
  cases value with
  | ofNat m => rfl
  | negSucc m =>
    rw [Whole.toText]
    simp [Text.decimal, toString, Int.repr, Nat.repr]

private theorem KeyLiteral.text_eq {key : Key} {text : String} (literal : KeyLiteral key text) :
    key.text = text := by
  cases literal with
  | name => rfl
  | text literal => rw [Key.text, literal.scalarText?_eq, Option.getD_some]
  | whole n => exact ofList_toText n
  | real => rfl
  | bool b => cases b <;> rfl

/-! ## Values -/

mutual
/-- An expression is a literal of a value. The texts of the keys of an object are the keys of the
value, in any order; they are distinct since ascending keys are. -/
inductive Denotes : Expr → Value → Prop where
  | null : Denotes .null .null
  | bool (b : Bool) : Denotes (.bool b) (.bool b)
  | whole (n : Whole) : Denotes (.number (.whole n)) (.number (.whole n))
  | text {e : Expr} {text : String} : TextLiteral e text → Denotes e (.string text)
  | array {items : List Expr} {values : List Value} :
      ItemsDenote items values → Denotes (.array items) (.array values)
  | object {entries : List (Key × Expr)} {written fields : List (String × Value)} :
      EntriesDenote entries written → written.Perm fields → AscendingKeys fields →
      Denotes (.object entries) (.object fields)
  | paren {inner : Expr} {value : Value} : Denotes inner value → Denotes (.paren inner) value

/-- Items are literals of values, one by one. -/
inductive ItemsDenote : List Expr → List Value → Prop where
  | nil : ItemsDenote [] []
  | cons {item : Expr} {value : Value} {items : List Expr} {values : List Value} :
      Denotes item value → ItemsDenote items values →
      ItemsDenote (item :: items) (value :: values)

/-- Entries are literals of keys and values, one by one. -/
inductive EntriesDenote : List (Key × Expr) → List (String × Value) → Prop where
  | nil : EntriesDenote [] []
  | cons {key : Key} {name : String} {e : Expr} {value : Value} {entries : List (Key × Expr)}
      {written : List (String × Value)} :
      KeyLiteral key name → Denotes e value → EntriesDenote entries written →
      EntriesDenote ((key, e) :: entries) ((name, value) :: written)
end

mutual
private theorem Denotes.toValue_eq {e : Expr} {value : Value} : Denotes e value → e.toValue = value
  | .null | .bool _ | .whole _ => rfl
  | .text literal => literal.toValue_eq
  | .array items => by rw [Expr.toValue, items.itemValues_eq]
  | .object entries perm ascending => by
    rw [Expr.toValue, entries.entryValues_eq, Value.ofFields, sortEntries_of_perm perm ascending]
  | .paren inner => inner.toValue_eq

private theorem ItemsDenote.itemValues_eq {items : List Expr} {values : List Value} :
    ItemsDenote items values → Expr.itemValues items = values
  | .nil => rfl
  | .cons first rest => by rw [Expr.itemValues, first.toValue_eq, rest.itemValues_eq]

private theorem EntriesDenote.entryValues_eq {entries : List (Key × Expr)}
    {written : List (String × Value)} :
    EntriesDenote entries written → Expr.entryValues entries = written
  | .nil => rfl
  | .cons key value rest => by
    rw [Expr.entryValues, key.text_eq, value.toValue_eq, rest.entryValues_eq]
end

/-! ## Which values have literals -/

mutual
private theorem Denotes.floatFree {e : Expr} {value : Value} : Denotes e value → value.FloatFree
  | .null | .bool _ | .whole _ | .text _ => trivial
  | .array items => items.floatFree
  | .object entries perm _ => by
    -- The fields are the written ones in another order.
    apply Value.floatFreeFields_iff.mpr
    intro field member
    exact Value.floatFreeFields_iff.mp entries.floatFree field (perm.mem_iff.mpr member)
  | .paren inner => inner.floatFree

private theorem ItemsDenote.floatFree {items : List Expr} {values : List Value} :
    ItemsDenote items values → Value.FloatFreeItems values
  | .nil => trivial
  | .cons first rest => ⟨first.floatFree, rest.floatFree⟩

private theorem EntriesDenote.floatFree {entries : List (Key × Expr)}
    {written : List (String × Value)} :
    EntriesDenote entries written → Value.FloatFreeFields written
  | .nil => trivial
  | .cons _ value rest => ⟨value.floatFree, rest.floatFree⟩
end

private theorem Denotes.canonical {e : Expr} {value : Value} (denotes : Denotes e value) :
    value.Canonical :=
  denotes.toValue_eq ▸ e.canonical_toValue

private theorem exists_itemsDenote {values : List Value}
    (each : ∀ value ∈ values, ∃ e, Denotes e value) : ∃ items, ItemsDenote items values := by
  induction values with
  | nil => exact ⟨[], .nil⟩
  | cons value rest ih =>
    obtain ⟨item, here⟩ := each value List.mem_cons_self
    obtain ⟨items, later⟩ := ih fun other member => each other (List.mem_cons_of_mem _ member)
    exact ⟨item :: items, .cons here later⟩

private theorem exists_entriesDenote {written : List (String × Value)}
    (each : ∀ field ∈ written, ∃ e, Denotes e field.2) :
    ∃ entries, EntriesDenote entries written := by
  induction written with
  | nil => exact ⟨[], .nil⟩
  | cons field rest ih =>
    obtain ⟨e, here⟩ := each field List.mem_cons_self
    obtain ⟨entries, later⟩ := ih fun other member => each other (List.mem_cons_of_mem _ member)
    exact ⟨(.name field.1, e) :: entries, .cons (.name field.1) here later⟩

/-- Exactly the values without floating point numbers have a literal. -/
theorem exists_denotes_iff {value : Value} :
    (∃ e, Denotes e value) ↔ value.FloatFree ∧ value.Canonical := by
  constructor
  · rintro ⟨e, denotes⟩
    exact ⟨denotes.floatFree, denotes.canonical⟩
  · -- The fields are written in the order in which they stand, which is that of their keys already.
    induction value using Value.inductionOn with
    | null => exact fun _ => ⟨.null, .null⟩
    | bool b => exact fun _ => ⟨.bool b, .bool b⟩
    | string text => exact fun _ => ⟨.string text, .text (.plain text)⟩
    | number n =>
      rintro ⟨floatFree, -⟩
      cases n with
      | whole n => exact ⟨.number (.whole n), .whole n⟩
      | real => exact floatFree.elim
    | array items ih =>
      rintro ⟨floatFree, canonical⟩
      obtain ⟨literals, denote⟩ := exists_itemsDenote fun item member => ih item member
        ⟨Value.floatFreeItems_iff.mp floatFree item member,
          Value.canonicalItems_iff.mp canonical item member⟩
      exact ⟨.array literals, .array denote⟩
    | object fields ih =>
      rintro ⟨floatFree, ascending, canonical⟩
      obtain ⟨entries, denote⟩ := exists_entriesDenote fun field member => ih field member
        ⟨Value.floatFreeFields_iff.mp floatFree field member,
          Value.canonicalFields_iff.mp canonical field member⟩
      exact ⟨.object entries, .object denote (.refl _) ascending⟩

/-! ## Defaults -/

open Interface (variableOf blocksIn)

/-- A variable need not be given a value, since it has this one; null is none. -/
structure DefaultsTo (v : Variable) (value : Value) : Prop where
  required : v.required = false
  default : v.defaultValue = if value = .null then none else some value

private theorem defaultsTo_variableOf (name : String) {block : Block} {e : Expr}
    (given : block.body.attribute? "default" = some e) :
    DefaultsTo (variableOf name block) e.toValue where
  required := by simp [variableOf, given]
  default := by
    by_cases null : e.toValue = .null
    · simp [variableOf, given, null, Value.isNull]
    · have notNull : e.toValue.isNull = false := by
        rw [← Bool.not_eq_true, Interface.isNull_iff]
        exact null
      simp [variableOf, given, null, notNull]

/-- A literal is read as the value that it denotes. So a variable with a literal as its default need
not be given a value, and has that value as its default unless it is null. -/
theorem literals_convert {e : Expr} {value : Value} (denotes : Denotes e value) :
    e.toValue = value ∧
    (∀ (name : String) (block : Block), block.body.attribute? "default" = some e →
      DefaultsTo (variableOf name block) value) ∧
    ∀ files interface, Interface.ofFiles files = .ok interface →
      List.Forall₂ (fun block v => block.name? = some v.name ∧
          (block.body.attribute? "default" = some e → DefaultsTo v value))
        (blocksIn "variable" files) interface.inputs := by
  refine ⟨denotes.toValue_eq, ?_, ?_⟩
  · intro name block given
    exact denotes.toValue_eq ▸ defaultsTo_variableOf name given
  · intro files interface read
    -- The interface that is read has one variable for each block, in order and under its name.
    obtain ⟨inputs, outputs, found, -, rfl⟩ := Interface.ofFiles_eq_ok_iff.mp read
    obtain ⟨blocks, accepted⟩ := Interface.namedIn_eq_ok_iff.mp found
    rw [← blocks]
    simp only [Interface.assembled, List.forall₂_map_left_iff, List.forall₂_map_right_iff,
      List.forall₂_same]
    intro declared member
    refine ⟨(accepted.named declared member).1, ?_⟩
    intro given
    obtain ⟨required, default⟩ := defaultsTo_variableOf declared.1 given
    rw [denotes.toValue_eq] at default
    exact ⟨required, default⟩

/-- Keys of three kinds, and values that are a heredoc or stand in parentheses. -/
def limitsLiteral : Expr :=
  .object
    [(.name "zone", .paren (.template "eu")),
      (.expr (.bool true), .array [.null, .paren (.number (.whole ⟨-3, by decide⟩))]),
      (.expr (.number (.whole ⟨443, by decide⟩)), .heredoc ⟨true, "EOT", "a\n$b\n\n"⟩)]

def limits : Value :=
  .object
    [("443", .string "a\n$b"), ("true", .array [.null, .number (.whole ⟨-3, by decide⟩)]),
      ("zone", .string "eu")]

def limitsFile : SourceFile :=
  ⟨"main.tf", [.block "variable" ["limits"] [.assign "default" limitsLiteral]]⟩

theorem literals_convert_limits :
    Denotes limitsLiteral limits ∧ limitsLiteral.toValue = limits ∧
    ∃ interface v, Interface.ofFiles [limitsFile] = .ok interface ∧ interface.inputs = [v] ∧
      v.required = false ∧ v.defaultValue = some limits := by
  have zone : TextLiteral (.template "eu") "eu" := .template ⟨by decide, by decide⟩
  have ends : "a\n$b".toList.getLast? ≠ some '\n' := by decide
  have codeFree : CodeFree "a\n$b" := ⟨by decide, by decide⟩
  have lines : TextLiteral (.heredoc ⟨true, "EOT", "a\n$b\n\n"⟩) "a\n$b" := .heredoc 2 ends codeFree
  have denotes : Denotes limitsLiteral limits := by
    refine .object (.cons (.name _) (.paren (.text zone)) (.cons (.bool true)
      (.array (.cons .null (.cons (.paren (.whole _)) .nil)))
      (.cons (.whole _) (.text lines) .nil))) ?_ ?_
    · decide
    · decide
  obtain ⟨converts, -, declares⟩ := literals_convert denotes
  obtain ⟨interface, read⟩ : ∃ interface, Interface.ofFiles [limitsFile] = .ok interface := ⟨_, rfl⟩
  -- There is one block, so that there is one variable.
  rcases interface with ⟨inputs, outputs⟩
  have inputs := declares _ _ read
  cases inputs with
  | cons declared rest =>
    cases rest
    obtain ⟨required, default⟩ := declared.2 rfl
    exact ⟨denotes, converts, _, _, read, rfl, required, default⟩

end Blueprint.Hcl
