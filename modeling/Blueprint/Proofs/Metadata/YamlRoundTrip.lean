import Blueprint.Metadata.Document
import Blueprint.Proofs.Metadata.Decode
import Blueprint.Proofs.Yaml.Grammar
import Blueprint.Proofs.Yaml.Schema

/-!
# YAML documents round-trip

The YAML trees of values answer readers of records faithfully, so a document that a text can hold is
read back from its YAML.
-/

namespace Blueprint

namespace Yaml.Bounded

/-- The tree of a value, from which some levels may be read. -/
def ofValue (depth : Nat) (value : Value) : Bounded :=
  ⟨Node.ofValue value, depth⟩

/-- The tree of a value with its texts in chosen styles, from which some levels may be read. -/
def styled (style : String → Style) (depth : Nat) (value : Value) : Bounded :=
  ⟨Node.styled style value, depth⟩

section Styled

variable {style : String → Style}

/-- A name that is not repeated is the key of the field that look-up finds. -/
private theorem value?_styledFields {fields : List (String × Value)}
    (distinct : (fields.map Prod.fst).Nodup) (name : String) :
    value? (Node.styledFields style fields) name =
      some ((fields.lookup name).map (Node.styled style)) := by
  -- Look-up wants exactly one entry with the name, and a name that is not repeated has one.
  have asked : (Node.styledFields style fields).filter (fun entry => entry.1.text? == some name) =
      ((fields.lookup name).map fun value =>
        (Node.scalar none (style name) name, Node.styled style value)).toList := by
    rw [Node.styledFields_eq_map]
    exact filter_map_entries distinct fun _ => rfl
  rw [value?, asked]
  cases fields.lookup name <;> rfl

private theorem count?_ofNat {depth n : Nat} (small : n < 18446744073709551616) :
    accessors.count? (styled style depth (.ofNat n)) = some n := by
  have whole : Whole.ofNat? n = some ⟨n, by omega⟩ := dif_pos small
  have written : (styled style depth (.ofNat n)).node =
      .scalar none .plain (String.ofList (Text.decimal n)) := by
    rw [Value.ofNat, whole]
    rfl
  have plain : maySpell "int" none .plain = true := rfl
  simp only [accessors, written, plain, if_true, String.toList_ofList, nat?_decimal]
  exact Option.filter_some_pos (by simpa using small)

variable (keeps : KeepsText style)
include keeps

/-- What is not null is not written as nothing or null. -/
private theorem present?_styled {depth : Nat} {value : Value} (notNull : value ≠ .null) :
    present? (styled style depth value) = some (some (styled style depth value)) := by
  -- Only plain scalars can be mistaken for nothing.
  have plain {text : String} (noNull : (text.toList.isEmpty || isNull text.toList) = false) :
      present? ⟨.scalar none .plain text, depth⟩ = some (some ⟨.scalar none .plain text, depth⟩) := by
    have empty : text.isEmpty = text.toList.isEmpty := by
      rw [Bool.eq_iff_iff, String.isEmpty_iff, List.isEmpty_iff, String.toList_eq_nil_iff]
    simp only [present?, empty, noNull, Bool.false_eq_true, if_false]
  cases value with
  | null => contradiction
  | bool b => cases b <;> rfl
  | number n =>
    refine plain ?_
    rw [String.toList_ofList]
    exact (startsNumber_toText Printer.numberLayout n).noWord.1
  | string s =>
    rw [styled, Node.styled]
    generalize chosen : style s = written
    cases written with
    | plain => exact plain (noNull_of_plainValue? (keeps s chosen) Value.noConfusion)
    | _ => rfl
  | array => rfl
  | object => rfl

/-- YAML trees of values answer as the values would, in whatever styles their texts are. -/
theorem faithful_styled : accessors.Faithful (styled style) where
  record {depth names fields} distinct := by
    have known : (Node.styledFields style fields).all (fun entry => entry.1.text?.isSome) = true := by
      simp [Node.styledFields_eq_map, Node.text?]
    show (if _ then _ else none) = _
    rw [if_pos known]
    refine mapM_eq_some_map fun name _ => ?_
    rw [value?_styledFields distinct, Option.map_some, Option.map_map]
    rfl
  items {depth items} := by
    show some ((Node.styledItems style items).map fun node => Bounded.mk node depth) = _
    rw [Node.styledItems_eq_map, List.map_map]
    rfl
  entries {depth fields} := by
    show (Node.styledFields style fields).mapM (fun entry => entry.1.text?.map fun name =>
      (name, Bounded.mk entry.2 depth)) = _
    rw [Node.styledFields_eq_map, List.mapM_map]
    exact mapM_eq_some_map fun _ _ => rfl
  text := rfl
  bool {depth b} := by cases b <;> rfl
  count := count?_ofNat
  value exact shallow := Node.toValue?_styled keeps _ exact.canonical exact.floatFree shallow
  choice {depth name} := rfl
  present := present?_styled keeps
  absent := rfl

end Styled

/-- YAML trees of values answer as the values would. -/
private theorem faithful : accessors.Faithful ofValue := by
  have same : ofValue = styled textStyle := by
    funext depth value
    exact congrArg (Bounded.mk · depth) (Node.ofValue_eq_styled value)
  rw [same]
  exact faithful_styled keepsText_textStyle

end Yaml.Bounded

namespace Metadata

/-- The tree of a document is read from its YAML. -/
private theorem tree_render_yaml {document : Metadata} (floatFree : document.toValue.FloatFree)
    (spread : Bool) :
    Yaml.read? (document.render .yaml spread) = some (Yaml.Node.ofValue document.toValue) :=
  Yaml.read?_render floatFree

theorem read?_render_yaml {document : Metadata} (exact : document.Exact)
    (shallow : document.toValue.nesting ≤ Yaml.maxDepth) (spread : Bool) :
    read? .yaml (document.render .yaml spread) = some document.withoutNulls := by
  rw [read?, tree_render_yaml exact.floatFree spread, Option.bind_some]
  exact decode_toValue Yaml.Bounded.faithful exact shallow

/-- A document is what is read from its YAML. -/
theorem parse_render_yaml {document : Metadata} (expressible : document.Expressible)
    (shallow : document.toValue.nesting ≤ Yaml.maxDepth) (spread : Bool) (path : String) :
    parse path .yaml (document.render .yaml spread) = .ok document := by
  rw [parse, read?_render_yaml expressible.exact shallow spread, expressible.withoutNulls]

end Metadata
end Blueprint
