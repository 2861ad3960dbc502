import Blueprint.Proofs.Metadata.Accepted
import Blueprint.Proofs.Metadata.JsonRoundTrip
import Blueprint.Proofs.Metadata.YamlRoundTrip

/-!
# Documents are read again

What was read from a text, in whatever form a reader accepts, is read again from the text that is
rendered for it. Only nulls get lost on the way, and a JSON text never leaves one behind.
-/

namespace Blueprint

namespace Json.Bounded

/-- A member is read less deep than its object. -/
private theorem depth_of_mem_record? {names : List String} {tree : Bounded}
    {found : List (Option Bounded)}
    (read : record? names tree = some found) :
    ∀ child? ∈ found, ∀ child ∈ child?, child.depth < tree.depth := by
  intro child? member child isChild
  obtain ⟨json, depth⟩ := tree
  unfold record? at read
  split at read
  · rename_i inner members isDepth _
    have isDepth : depth = inner + 1 := isDepth
    split at read
    · obtain ⟨name, -, given⟩ := exists_of_mem_mapM read member
      obtain ⟨json?, -, rfl⟩ := Option.map_eq_some_iff.mp given
      obtain ⟨json, -, rfl⟩ := Option.map_eq_some_iff.mp isChild
      simp [isDepth]
    · cases read
  · rename_i inner items isDepth _
    have isDepth : depth = inner + 1 := isDepth
    split at read
    · cases read
      -- A record may be given as an array of its fields in order. Those that are missing are not
      -- there.
      rcases List.mem_append.mp member with isItem | isMissing
      · obtain ⟨json, -, rfl⟩ := List.mem_map.mp isItem
        cases isChild
        simp [isDepth]
      · obtain rfl := List.eq_of_mem_replicate isMissing
        cases isChild
    · cases read
  · cases read

private theorem depth_of_mem_items? {tree : Bounded} {found : List Bounded}
    (read : items? tree = some found) : ∀ child ∈ found, child.depth < tree.depth := by
  intro child member
  obtain ⟨json, depth⟩ := tree
  unfold items? at read
  split at read
  · rename_i inner items isDepth _
    have isDepth : depth = inner + 1 := isDepth
    cases read
    obtain ⟨json, -, rfl⟩ := List.mem_map.mp member
    simp [isDepth]
  · cases read

private theorem count?_lt {tree : Bounded} {n : Nat} (read : count? tree = some n) :
    n < 18446744073709551616 := by
  unfold count? at read
  split at read
  · rename_i whole _
    have inRange := whole.inRange.2
    rw [Whole.toNat?] at read
    split at read
    · cases read
      omega
    · cases read
  · cases read

/-- Null is only read from null. -/
private theorem eq_null_of_toValue? {depth : Nat} {json : Json}
    (read : toValue? depth json = some .null) :
    json = .null := by
  cases json with
  | null => rfl
  | bool => cases read
  | number value? => cases value? <;> cases read
  | string text? => cases text? <;> cases read
  | array items =>
    cases depth with
    | zero => cases read
    | succ inner =>
      obtain ⟨values, -, same⟩ := Option.map_eq_some_iff.mp read
      cases same
  | object members =>
    cases depth with
    | zero => cases read
    | succ inner =>
      obtain ⟨fields, -, same⟩ := Option.map_eq_some_iff.mp read
      cases same

/-- What is there in a JSON text is not null. -/
private theorem sound : accessors.Sound (·.depth) (· ≠ .null) where
  record := depth_of_mem_record?
  items := depth_of_mem_items?
  present {tree inner} read := by
    simp only [accessors] at read
    split at read <;> cases read
    rfl
  count := count?_lt
  -- Only null is read from null, and null does not count as being there.
  value {tree value} isPresent read := by
    refine ⟨within_of_toValue? tree.json read, ?_⟩
    rintro rfl
    simp [accessors, eq_null_of_toValue? read] at isPresent

end Json.Bounded

namespace Yaml.Bounded

private theorem depth_of_mem_record? {names : List String} {tree : Bounded}
    {found : List (Option Bounded)}
    (read : record? names tree = some found) :
    ∀ child? ∈ found, ∀ child ∈ child?, child.depth < tree.depth := by
  intro child? member child isChild
  obtain ⟨node, depth⟩ := tree
  unfold record? at read
  split at read
  · rename_i inner tag? entries isDepth _
    have isDepth : depth = inner + 1 := isDepth
    split at read
    · obtain ⟨name, -, given⟩ := exists_of_mem_mapM read member
      obtain ⟨node?, -, rfl⟩ := Option.map_eq_some_iff.mp given
      obtain ⟨node, -, rfl⟩ := Option.map_eq_some_iff.mp isChild
      simp [isDepth]
    · cases read
  -- A record of nothing has nothing inside.
  · split at read
    · cases read
      obtain ⟨name, -, rfl⟩ := List.mem_map.mp member
      cases isChild
    · cases read

private theorem depth_of_mem_items? {tree : Bounded} {found : List Bounded}
    (read : items? tree = some found) : ∀ child ∈ found, child.depth < tree.depth := by
  intro child member
  obtain ⟨node, depth⟩ := tree
  unfold items? at read
  split at read
  · rename_i inner tag? items isDepth _
    have isDepth : depth = inner + 1 := isDepth
    cases read
    obtain ⟨node, -, rfl⟩ := List.mem_map.mp member
    simp [isDepth]
  · split at read
    · cases read
      cases member
    · cases read

/-- YAML may leave anything behind, null included. -/
private theorem sound : accessors.Sound (·.depth) fun _ => True where
  record := depth_of_mem_record?
  items := depth_of_mem_items?
  present {tree inner} read := by
    simp only [accessors, present?] at read
    repeat' split at read
    all_goals cases read
    all_goals rfl
  count {tree n} read := by
    simp only [accessors] at read
    split at read
    · split at read
      · have small := (Option.filter_eq_some_iff.mp read).2
        simpa using small
      · cases read
    · cases read
  value {tree value} _ read := ⟨Node.within_of_toValue? tree.node read, trivial⟩

end Yaml.Bounded

namespace Metadata

/-- The dynamic values of a document are without floating point numbers. -/
structure FloatFree (document : Metadata) : Prop where
  defaults : ∀ v ∈ document.spec.interfaces.inputs, ∀ value ∈ v.defaultValue, value.FloatFree
  types : ∀ o ∈ document.spec.interfaces.outputs, ∀ value ∈ o.type, value.FloatFree

instance (document : Metadata) : Decidable document.FloatFree :=
  decidable_of_iff
    ((∀ v ∈ document.spec.interfaces.inputs, ∀ value ∈ v.defaultValue, value.FloatFree) ∧
      ∀ o ∈ document.spec.interfaces.outputs, ∀ value ∈ o.type, value.FloatFree)
    ⟨fun holds => ⟨holds.1, holds.2⟩, fun floatFree => ⟨floatFree.defaults, floatFree.types⟩⟩

/-- What was read without floating point numbers is exact. -/
private theorem FloatFree.exact {document : Metadata} (floatFree : document.FloatFree)
    {possible : Value → Prop} {depth : Nat}
    (within : document.spec.interfaces.Within possible depth) : document.Exact where
  inputs v member :=
    { default := fun value found =>
        ⟨floatFree.defaults v member value found,
          ((within.inputs v member).default value found).1.canonical⟩
      order := (within.inputs v member).order }
  types o member value found :=
    ⟨floatFree.types o member value found, (within.types o member value found).1.canonical⟩

theorem parse_eq_ok_iff {path text : String} {format : Format} {document : Metadata} :
    parse path format text = .ok document ↔ read? format text = some document := by
  rw [parse]
  cases read? format text <;> simp

/-- A JSON text leaves nothing behind that is null, and nests no deeper than is read. -/
theorem accepted_of_read?_json {text : String} {document : Metadata}
    (read : read? .json text = some document) :
    document.spec.interfaces.Within (· ≠ .null) 122 ∧ document.toValue.nesting ≤ Json.maxDepth := by
  obtain ⟨json, -, decoded⟩ := Option.bind_eq_some_iff.mp read
  -- A document is read from 127 levels, of which its dynamic values may take up 122; the records
  -- around them add the other five when it is written.
  have within := within_of_decode Json.Bounded.sound decoded (Nat.le_refl (122 + 5))
  exact ⟨within, @nesting_toValue_le _ 119 _ within⟩

theorem accepted_of_read?_yaml {text : String} {document : Metadata}
    (read : read? .yaml text = some document) :
    document.spec.interfaces.Within (fun _ => True) 123 ∧
      document.toValue.nesting ≤ Yaml.maxDepth := by
  obtain ⟨node, -, decoded⟩ := Option.bind_eq_some_iff.mp read
  have within := within_of_decode Yaml.Bounded.sound decoded (Nat.le_refl (123 + 5))
  exact ⟨within, @nesting_toValue_le _ 120 _ within⟩

/-- What was read from a text without floating point numbers is read again from the text that is
rendered for it, apart from defaults and types that are null. JSON leaves no such null behind. -/
theorem parse_render_parse {path text : String} {format : Format} {document : Metadata}
    (read : parse path format text = .ok document) (floatFree : document.FloatFree)
    (other : String) (spread : Bool) :
    parse other format (document.render format spread) = .ok document.withoutNulls ∧
      (format = .json → document.withoutNulls = document) := by
  rw [parse_eq_ok_iff] at read ⊢
  cases format with
  | json =>
    obtain ⟨within, shallow⟩ := accepted_of_read?_json read
    refine ⟨read?_render_json (floatFree.exact within) shallow spread, fun _ => ?_⟩
    exact withoutNulls_eq_self
      (fun v member value found => ((within.inputs v member).default value found).2)
      fun o member value found => (within.types o member value found).2
  | yaml =>
    obtain ⟨within, shallow⟩ := accepted_of_read?_yaml read
    exact ⟨read?_render_yaml (floatFree.exact within) shallow spread, nofun⟩

/-- A text whose only default is not a number. -/
def notANumberText : String :=
  "metadata:\n  name: n\nspec:\n  interfaces:\n    variables:\n      - name: v\n        defaultValue: .nan\n"

/-- The default is there, but it is null. -/
def notANumberDocument : Metadata where
  resource := { name := "n" }
  spec := { interfaces := { inputs := [{ name := "v", defaultValue := some .null }] } }

private theorem read?_notANumber : read? .yaml notANumberText = some notANumberDocument := by
  decide +kernel

private theorem floatFree_notANumber : notANumberDocument.FloatFree where
  defaults v member value found := by
    obtain rfl := List.mem_singleton.mp member
    cases found
    trivial
  types o member := nomatch member

theorem parse_render_parse_notANumber :
    parse "m.yaml" .yaml notANumberText = .ok notANumberDocument ∧ notANumberDocument.FloatFree ∧
      parse "m.yaml" .yaml (notANumberDocument.render .yaml true) =
        .ok notANumberDocument.withoutNulls :=
  have read := parse_eq_ok_iff.mpr read?_notANumber
  ⟨read, floatFree_notANumber, (parse_render_parse read floatFree_notANumber "m.yaml" true).1⟩

/-- A document may be read that is not read again from its own text. -/
theorem exists_not_reread :
    ∃ text document, parse "m.yaml" .yaml text = .ok document ∧ document.FloatFree ∧
      parse "m.yaml" .yaml (document.render .yaml true) ≠ .ok document := by
  obtain ⟨within, shallow⟩ := accepted_of_read?_yaml read?_notANumber
  have exact := floatFree_notANumber.exact within
  -- The null is written, but it is read as if there were nothing.
  have lost : notANumberDocument.withoutNulls ≠ notANumberDocument := by decide
  refine ⟨notANumberText, notANumberDocument, parse_eq_ok_iff.mpr read?_notANumber,
    floatFree_notANumber, ?_⟩
  rw [Ne, parse_eq_ok_iff, read?_render_yaml exact shallow true]
  exact fun same => lost (Option.some.inj same)

end Metadata
end Blueprint
