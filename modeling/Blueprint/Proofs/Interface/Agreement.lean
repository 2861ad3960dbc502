import Blueprint.Proofs.Interface.Orders
import Mathlib.Data.List.Forall2

/-!
# Interfaces and places agree

What an interface that was read says about the blocks of its files, when reading it or placing its
variables fails, and why the two never disagree. A fault in a variable stops both, and both name the
same file and the same fault unless an output is at fault as well.
-/

namespace Blueprint.Interface

/-- A variable says what its block says about it. -/
structure DeclaredBy (block : Hcl.Block) (v : Variable) : Prop where
  name : block.name? = some v.name
  required : v.required = true ↔ block.body.attribute? "default" = none
  unset : v.required = true → v.defaultValue = none
  notNull : v.defaultValue ≠ some .null
  /-- The default is the value of the attribute unless that is null. -/
  default : ∀ value, v.defaultValue = some value ↔
    value ≠ .null ∧ ∃ e, block.body.attribute? "default" = some e ∧ e.toValue = value

/-- An interface lists the blocks of files in order, under names that are not blank and occur once,
and every variable knows its place. -/
structure Describes (files : List SourceFile) (interface : Interface) : Prop where
  inputs : List.Forall₂ DeclaredBy (blocksIn "variable" files) interface.inputs
  outputs : List.Forall₂ (fun block o => block.name? = some o.name) (blocksIn "output" files)
    interface.outputs
  inputNames : (interface.inputs.map (·.name)).Nodup
  outputNames : (interface.outputs.map (·.name)).Nodup
  inputsNotBlank : ∀ v ∈ interface.inputs, ¬ Blank v.name
  outputsNotBlank : ∀ o ∈ interface.outputs, ¬ Blank o.name
  orders : ∀ (k : Nat) (v : Variable), interface.inputs[k]? = some v → v.order = some k

theorem isNull_iff {value : Value} : value.isNull = true ↔ value = .null := by
  cases value <;> simp [Value.isNull]

theorem defaultValue_variableOf (name : String) {block : Hcl.Block} {value : Value} :
    (variableOf name block).defaultValue = some value ↔
      value ≠ .null ∧ ∃ e, block.body.attribute? "default" = some e ∧ e.toValue = value := by
  simp only [variableOf, Option.filter_eq_some_iff, Option.map_eq_some_iff, Bool.not_eq_true',
    ← Bool.not_eq_true, isNull_iff, ne_eq]
  tauto

private theorem declaredBy_variableOf {name : String} {block : Hcl.Block} (order : Option Nat)
    (chosen : block.name? = some name) :
    DeclaredBy block { variableOf name block with order } where
  name := chosen
  required := by simp [variableOf]
  unset required := by
    have missing : block.body.attribute? "default" = none := by simpa [variableOf] using required
    simp [variableOf, missing]
  notNull null := ((defaultValue_variableOf name).mp null).1 rfl
  default _ := defaultValue_variableOf name

theorem describes_assembled {files : List SourceFile} {inputs outputs : List (String × Hcl.Block)}
    (read : namedIn "variable" [] files = .ok inputs)
    (named : namedIn "output" [] files = .ok outputs) :
    Describes files (assembled inputs outputs) := by
  obtain ⟨inputBlocks, fine⟩ := namedIn_eq_ok_iff.mp read
  obtain ⟨outputBlocks, sound⟩ := namedIn_eq_ok_iff.mp named
  constructor
  case inputs =>
    rw [← inputBlocks]
    simp only [assembled, List.forall₂_map_left_iff, List.forall₂_map_right_iff, List.forall₂_same]
    exact fun pair member => declaredBy_variableOf _ (fine.named pair member).1
  case outputs =>
    rw [← outputBlocks]
    simp only [assembled, List.forall₂_map_left_iff, List.forall₂_map_right_iff, List.forall₂_same]
    exact fun pair member => (sound.named pair member).1
  case inputNames => simpa [assembled, variableOf, Function.comp_def] using fine.new.distinct
  case outputNames => simpa [assembled, outputOf, Function.comp_def] using sound.new.distinct
  case inputsNotBlank =>
    intro v member
    obtain ⟨pair, inFound, rfl⟩ := List.mem_map.mp member
    exact (fine.named pair inFound).2
  case outputsNotBlank =>
    intro o member
    obtain ⟨pair, inFound, rfl⟩ := List.mem_map.mp member
    exact (sound.named pair inFound).2
  case orders =>
    -- Each name occurs once, so that the place it was given last is the place where it stands.
    intro k v chosen
    simp only [assembled, List.getElem?_map, Option.map_eq_some_iff] at chosen
    obtain ⟨pair, here, rfl⟩ := chosen
    exact (get?_placeAll_empty fine.new.distinct).mpr (by simp [here])

/-- Where an interface is read its variables have places, and these are where they stand. -/
private theorem describes_of_ofFiles {files : List SourceFile} {interface : Interface}
    (read : ofFiles files = .ok interface) :
    Describes files interface ∧ ∃ orders, variableOrders files = .ok orders ∧
      ∀ name place, orders.get? name = some place ↔
        ∃ v, interface.inputs[place]? = some v ∧ v.name = name := by
  obtain ⟨inputs, outputs, found, named, rfl⟩ := ofFiles_eq_ok_iff.mp read
  have describes := describes_assembled found named
  refine ⟨describes, placeAll .empty (inputs.map (·.1)), ?_, fun name place => ?_⟩
  · rw [variableOrders_eq_map, found]
    rfl
  -- Places were given by name, and names are those of the variables.
  · have names : (assembled inputs outputs).inputs.map (·.name) = inputs.map (·.1) := by
      simp [assembled, variableOf, Function.comp_def]
    rw [get?_placeAll_empty (names ▸ describes.inputNames), ← names]
    simp only [List.getElem?_map, Option.map_eq_some_iff]

/-- Unless an output is at fault, both fail alike. -/
private theorem ofFiles_of_variableOrders {files : List SourceFile} {error : Error}
    (sound : ¬ AtFault (blocksIn "output" files)) (failed : variableOrders files = .error error) :
    ofFiles files = .error error := by
  obtain ⟨outputs, named⟩ := exists_namedIn_iff.mpr sound
  rw [variableOrders_eq_map, map_eq_error_iff] at failed
  rw [ofFiles_eq_map named, failed]
  rfl

/-- Reading an interface and placing its variables agree on all files: on the places where an
interface is read, on what stops them, and on the error unless an output is at fault. -/
theorem ofFiles_agrees_variableOrders (files : List SourceFile) :
    (∀ interface, ofFiles files = .ok interface →
      Describes files interface ∧ ∃ orders, variableOrders files = .ok orders ∧
        ∀ name place, orders.get? name = some place ↔
          ∃ v, interface.inputs[place]? = some v ∧ v.name = name) ∧
    ((∃ error, ofFiles files = .error error) ↔
      AtFault (blocksIn "variable" files) ∨ AtFault (blocksIn "output" files)) ∧
    ((∃ error, variableOrders files = .error error) ↔ AtFault (blocksIn "variable" files)) ∧
    ((∃ error, variableOrders files = .error error) → ∃ error, ofFiles files = .error error) ∧
    (¬ AtFault (blocksIn "output" files) → ∀ error, variableOrders files = .error error →
      ofFiles files = .error error ∧
        ∃ file ∈ files, ∃ message, error = .validation file.path message) := by
  refine ⟨fun interface => describes_of_ofFiles, ofFiles_error_iff, variableOrders_error_iff, ?_, ?_⟩
  · intro failed
    exact ofFiles_error_iff.mpr (.inl (variableOrders_error_iff.mp failed))
  · intro sound error failed
    exact ⟨ofFiles_of_variableOrders sound failed, validation_of_variableOrders failed⟩

/-- An output before a variable in one file, and a variable whose default is null in the next. -/
def regionFiles : List SourceFile :=
  [⟨"main.tf", [.block "output" ["id"] [], .block "variable" ["zone"] []]⟩,
    ⟨"more.tf", [.block "variable" ["region"] [.assign "default" .null]]⟩]

def regionInterface : Interface where
  inputs := [{ name := "zone", required := true, order := some 0 },
    { name := "region", order := some 1 }]
  outputs := [{ name := "id" }]

/-- The same variable in two files. -/
def zoneTwice : List SourceFile :=
  [⟨"main.tf", [.block "variable" ["zone"] []]⟩, ⟨"more.tf", [.block "variable" ["zone"] []]⟩]

theorem ofFiles_agrees_variableOrders_region :
    (ofFiles regionFiles = .ok regionInterface ∧ Describes regionFiles regionInterface) ∧
    ¬ AtFault (blocksIn "output" zoneTwice) ∧
    variableOrders zoneTwice = .error (.validation "more.tf" "duplicate variable \"zone\"") ∧
    ofFiles zoneTwice = .error (.validation "more.tf" "duplicate variable \"zone\"") := by
  have read : ofFiles regionFiles = .ok regionInterface := eq_ok_of_toOption (by decide +kernel)
  have failed :
      variableOrders zoneTwice = .error (.validation "more.tf" "duplicate variable \"zone\"") := by
    rfl
  have sound : ¬ AtFault (blocksIn "output" zoneTwice) := exists_namedIn_iff.mp ⟨[], rfl⟩
  obtain ⟨agree, _⟩ := ofFiles_agrees_variableOrders regionFiles
  obtain ⟨_, _, _, _, alike⟩ := ofFiles_agrees_variableOrders zoneTwice
  exact ⟨⟨read, (agree _ read).1⟩, sound, failed, (alike sound _ failed).1⟩

end Blueprint.Interface
