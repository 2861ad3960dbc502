import Blueprint.Proofs.Json.Grammar
import Blueprint.Proofs.OutputTypes
import Blueprint.Proofs.State.Inference

/-!
# Layouts of a state

A state lists its outputs at the top, or else under its values. The types that are read from it
depend on the list only, whatever else the state holds and wherever the list stands, and every entry
of the list is judged on its own (`Tells`).
-/

namespace Blueprint.State

/-! ## Entries -/

/-- The type of an output that its entry tells: the one that was recorded, or the one of its value
where none was recorded or null was. -/
inductive Tells (entry : Value) : Value → Prop where
  | recorded {type : Value} : entry.field? "type" = some type → type ≠ .null → Tells entry type
  | inferred {value type : Value} : (∀ recorded, entry.field? "type" = some recorded →
      recorded = .null) → entry.field? "value" = some value → value.inferType? = some type →
      Tells entry type

private theorem outputType?_eq_some_iff {entry type : Value} :
    outputType? entry = some type ↔ Tells entry type := by
  unfold outputType?
  -- A recorded type counts unless it is null; then, as where there is none, the value tells it.
  constructor
  · intro told
    split at told
    · next absent =>
      obtain ⟨value, found, inferred⟩ := Option.bind_eq_some_iff.mp told
      exact .inferred (by simp [absent]) found inferred
    · next isNull =>
      obtain ⟨value, found, inferred⟩ := Option.bind_eq_some_iff.mp told
      exact .inferred (by simp [isNull]) found inferred
    · next recorded notNull found =>
      cases told
      exact .recorded found fun isNull => notNull (isNull ▸ rfl)
  · intro told
    cases told with
    | recorded found notNull => cases type <;> simp_all
    | inferred unrecorded found inferred =>
      cases recorded : entry.field? "type" with
      | none => simp [found, inferred]
      | some other =>
        obtain rfl := unrecorded other recorded
        simp [found, inferred]

private theorem exists_fields_of_field? {entry given : Value} {name : String}
    (found : entry.field? name = some given) :
    ∃ fields, entry = .object fields ∧ fields.lookup name = some given := by
  cases entry with
  | object fields => exact ⟨fields, rfl, found⟩
  | _ => cases found

private theorem exists_inferred {value : Value} (notNull : value ≠ .null) :
    ∃ type, value.inferType? = some type := by
  rw [← Option.isSome_iff_exists, ← Option.ne_none_iff_isSome]
  intro unknown
  exact notNull (Value.inferType?_eq_none_iff.mp unknown)

/-- An entry tells a type exactly if it is an object in which a type or a value is given that is not
null. -/
private theorem exists_tells_iff {entry : Value} :
    (∃ type, Tells entry type) ↔ ∃ fields, entry = .object fields ∧ ∃ given, given ≠ .null ∧
      (fields.lookup "type" = some given ∨ fields.lookup "value" = some given) := by
  constructor
  · rintro ⟨type, told⟩
    cases told with
    | recorded found notNull =>
      obtain ⟨fields, rfl, found⟩ := exists_fields_of_field? found
      exact ⟨fields, rfl, type, notNull, .inl found⟩
    | @inferred value _ unrecorded found inferred =>
      obtain ⟨fields, rfl, found⟩ := exists_fields_of_field? found
      refine ⟨fields, rfl, value, ?_, .inr found⟩
      rintro rfl
      cases inferred
  · rintro ⟨fields, rfl, given, notNull, given'⟩
    -- A recorded type that is not null counts, whatever the value is.
    by_cases recorded : ∃ type, fields.lookup "type" = some type ∧ type ≠ .null
    · obtain ⟨type, found, notNull⟩ := recorded
      exact ⟨type, .recorded found notNull⟩
    · have unrecorded : ∀ type, fields.lookup "type" = some type → type = .null := by
        intro type found
        by_contra known
        exact recorded ⟨type, found, known⟩
      have found : fields.lookup "value" = some given :=
        given'.resolve_left fun isType => notNull (unrecorded given isType)
      obtain ⟨type, inferred⟩ := exists_inferred notNull
      exact ⟨type, .inferred unrecorded found inferred⟩

private theorem Tells.ne_null {entry type : Value} (told : Tells entry type) : type ≠ .null := by
  cases told with
  | recorded found notNull => exact notNull
  | @inferred value _ unrecorded found inferred =>
    rintro rfl
    exact Value.inferType?_ne_null value inferred

/-! ## Lists of outputs -/

/-- The bytes of a state list outputs at its top. -/
def ListsAtTop (bytes : ByteArray) (listed : List (String × Value)) : Prop :=
  ∃ fields, read? bytes = some (.object fields) ∧ fields.lookup "outputs" = some (.object listed)

/-- The bytes of a state list outputs under its values, and nothing stands at its top for them. -/
def ListsUnderValues (bytes : ByteArray) (listed : List (String × Value)) : Prop :=
  ∃ fields values, read? bytes = some (.object fields) ∧ fields.lookup "outputs" = none ∧
    fields.lookup "values" = some (.object values) ∧
    values.lookup "outputs" = some (.object listed)

/-- The types that a list of outputs tells. -/
def typesIn (listed : List (String × Value)) : SortedMap Value :=
  .ofList (listed.filterMap fun (name, entry) =>
    (outputType? entry).map fun type => (name, type))

private theorem ListsAtTop.outputTypes_eq {bytes : ByteArray} {listed : List (String × Value)}
    (lists : ListsAtTop bytes listed) (path : String) :
    outputTypes path bytes = .ok (typesIn listed) := by
  obtain ⟨fields, read, found⟩ := lists
  refine outputTypes_eq_ok_iff.mpr ⟨fields, read, ?_⟩
  simp [typesOf, typesIn, outputs, Value.field?, found]

private theorem ListsUnderValues.outputTypes_eq {bytes : ByteArray} {listed : List (String × Value)}
    (lists : ListsUnderValues bytes listed) (path : String) :
    outputTypes path bytes = .ok (typesIn listed) := by
  obtain ⟨fields, values, read, absent, found, inner⟩ := lists
  refine outputTypes_eq_ok_iff.mpr ⟨fields, read, ?_⟩
  simp [typesOf, typesIn, outputs, Value.field?, absent, found, inner]

private theorem ListsAtTop.ascending {bytes : ByteArray} {listed : List (String × Value)}
    (lists : ListsAtTop bytes listed) : AscendingKeys listed := by
  obtain ⟨fields, read, found⟩ := lists
  exact (Value.canonical_of_mem_object (canonical_of_read? read) (mem_of_lookup found)).1

/-- Under every name the type that the entry of that name tells is found. -/
private theorem get?_typesIn {listed : List (String × Value)} (ascending : AscendingKeys listed)
    (name : String) : (typesIn listed).get? name = (listed.lookup name).bind outputType? := by
  have sorted := sortEntries_of_ascending (ascending.filterMap outputType?)
  rw [← lookup_filterMap_values outputType? name ascending.distinct]
  exact congrArg (List.lookup name) sorted

private theorem outputTypes_eq_error_iff {path : String} {bytes : ByteArray} {error : Error} :
    outputTypes path bytes = .error error ↔
      (read? bytes = none ∧ error = .state path .notJson) ∨
      (∃ state, read? bytes = some state ∧ ∀ fields, state ≠ .object fields) ∧
        error = .state path .notObject := by
  unfold outputTypes
  cases read? bytes with
  | none => simp [eq_comm]
  | some state => cases state <;> simp [eq_comm]

/-- Types are told by the entries of a list: by each entry that can, under its name. -/
structure ToldBy (listed : List (String × Value)) (types : SortedMap Value) : Prop where
  named : ∀ name, types.contains name = true ↔ ∃ fields, listed.lookup name = some (.object fields) ∧
    ∃ given, given ≠ .null ∧
      (fields.lookup "type" = some given ∨ fields.lookup "value" = some given)
  told : ∀ name type, types.get? name = some type ↔
    ∃ entry, listed.lookup name = some entry ∧ Tells entry type
  notNull : ∀ name, types.get? name ≠ some .null

private theorem toldBy_typesIn {listed : List (String × Value)} (ascending : AscendingKeys listed) :
    ToldBy listed (typesIn listed) := by
  have told (name : String) (type : Value) : (typesIn listed).get? name = some type ↔
      ∃ entry, listed.lookup name = some entry ∧ Tells entry type := by
    simp only [get?_typesIn ascending, Option.bind_eq_some_iff, outputType?_eq_some_iff]
  refine ⟨?_, told, ?_⟩
  · intro name
    rw [SortedMap.contains, Option.isSome_iff_exists]
    simp only [told]
    constructor
    · rintro ⟨type, entry, found, tells⟩
      obtain ⟨fields, rfl, given⟩ := exists_tells_iff.mp ⟨type, tells⟩
      exact ⟨fields, found, given⟩
    · rintro ⟨fields, found, given⟩
      obtain ⟨type, tells⟩ := exists_tells_iff.mpr ⟨fields, rfl, given⟩
      exact ⟨type, .object fields, found, tells⟩
  · intro name isNull
    obtain ⟨entry, -, tells⟩ := (told name .null).mp isNull
    exact tells.ne_null rfl

/-- The same list of outputs gives the same types in both layouts, whatever else the states hold,
and these are told by its entries. Types cannot be read only from bytes that are no JSON, or that
are JSON but no object. -/
theorem outputTypes_of_layouts {listed : List (String × Value)} {top nested : ByteArray}
    (atTop : ListsAtTop top listed) (underValues : ListsUnderValues nested listed) :
    (∃ types, ToldBy listed types ∧
      ∀ path, outputTypes path top = .ok types ∧ outputTypes path nested = .ok types) ∧
    ∀ path bytes error, outputTypes path bytes = .error error ↔
      (read? bytes = none ∧ error = .state path .notJson) ∨
      (∃ state, read? bytes = some state ∧ ∀ fields, state ≠ .object fields) ∧
        error = .state path .notObject := by
  refine ⟨⟨typesIn listed, toldBy_typesIn atTop.ascending, ?_⟩, ?_⟩
  · intro path
    exact ⟨atTop.outputTypes_eq path, underValues.outputTypes_eq path⟩
  · intro path bytes error
    exact outputTypes_eq_error_iff

/-- The text of a value is a state that holds it. -/
private theorem read?_render {value : Value} (floatFree : value.FloatFree)
    (canonical : value.Canonical)
    (shallow : value.nesting ≤ Json.maxDepth) (spread : Bool) :
    read? (Json.render spread value).toUTF8 = some value := by
  have parsed := Json.parse?_render floatFree spread Json.blank_nil
  rw [String.ofList_nil, String.append_empty] at parsed
  rw [read?, fromUTF8?_toUTF8, Option.bind_some, parsed, Option.bind_some]
  exact Json.toValue?_ofValue value canonical shallow

/-- Outputs without an object as entry, with a type that is null and a value, with a value that is
null, and with a recorded type. -/
def listedOutputs : List (String × Value) :=
  [("flat", .string "x"),
    ("id", .object [("type", .null), ("value", .array [.string "a", .null])]),
    ("lost", .object [("value", .null)]),
    ("name", .object [("type", .string "string"), ("value", .bool true)])]

def stateAtTop : Value :=
  .object [("outputs", .object listedOutputs), ("serial", .number (.whole ⟨7, by decide⟩)),
    ("values", .object [("outputs", .object [])])]

def stateUnderValues : Value :=
  .object [("values", .object [("outputs", .object listedOutputs)]), ("version", .string "1.0")]

theorem outputTypes_of_layouts_listedOutputs :
    ListsAtTop (Json.render true stateAtTop).toUTF8 listedOutputs ∧
    ListsUnderValues (Json.render false stateUnderValues).toUTF8 listedOutputs ∧
    ∃ types, types.get? "id" = some (.array [.string "tuple",
        .array [.string "string", .string "dynamic"]]) ∧
      types.get? "name" = some (.string "string") ∧ types.get? "lost" = none ∧
      outputTypes "a.json" (Json.render true stateAtTop).toUTF8 = .ok types ∧
      outputTypes "b.json" (Json.render false stateUnderValues).toUTF8 = .ok types := by
  have canonical : stateAtTop.Canonical ∧ stateUnderValues.Canonical := by
    simp +decide [stateAtTop, stateUnderValues, listedOutputs, Value.Canonical,
      Value.CanonicalFields, Value.CanonicalItems]
  have atTop : ListsAtTop (Json.render true stateAtTop).toUTF8 listedOutputs :=
    ⟨_, read?_render (by decide) canonical.1 (by decide) true, rfl⟩
  have underValues : ListsUnderValues (Json.render false stateUnderValues).toUTF8 listedOutputs :=
    ⟨_, _, read?_render (by decide) canonical.2 (by decide) false, rfl, rfl, rfl⟩
  obtain ⟨⟨types, toldBy, read⟩, -⟩ := outputTypes_of_layouts atTop underValues
  refine ⟨atTop, underValues, types, ?_, ?_, ?_, (read _).1, (read _).2⟩
  · apply (toldBy.told _ _).mpr
    exact ⟨_, rfl, outputType?_eq_some_iff.mp rfl⟩
  · apply (toldBy.told _ _).mpr
    exact ⟨_, rfl, outputType?_eq_some_iff.mp rfl⟩
  · apply Option.eq_none_iff_forall_ne_some.mpr
    intro type found
    obtain ⟨entry, listed, tells⟩ := (toldBy.told _ _).mp found
    cases listed
    have told := outputType?_eq_some_iff.mpr tells
    cases told

end Blueprint.State
