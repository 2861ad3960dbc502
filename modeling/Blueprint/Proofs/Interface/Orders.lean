import Blueprint.Proofs.Interface.Declarations

/-!
# Places of variables

An interface and the places of its variables are read by two loops over the same files. The first
one takes the variables and then the outputs of each file and remembers names in two lists; the
second one takes variables only and counts the entries of its map. Each loop is compared with
`namedIn`, so they stop at the same variable with the same error, and where they end every variable
has the place at which it stands.
-/

namespace Blueprint.Interface

/-- Gives names the places behind those that are taken. -/
def placeAll (orders : SortedMap Nat) (names : List String) : SortedMap Nat :=
  names.foldl (fun orders name => orders.insert name orders.size) orders

/-- A map has a place for exactly the names of a list. -/
def Holds (orders : SortedMap Nat) (seen : List String) : Prop :=
  ∀ name, orders.contains name = true ↔ name ∈ seen

private theorem holds_empty : Holds .empty [] := by
  intro name
  simp [SortedMap.contains]

private theorem Holds.insert {orders : SortedMap Nat} {seen : List String}
    (holds : Holds orders seen)
    (name : String) (place : Nat) : Holds (orders.insert name place) (name :: seen) := by
  intro other
  rw [SortedMap.contains_insert, holds other, List.mem_cons]

private theorem Holds.placeAll {orders : SortedMap Nat} {seen : List String} (names : List String)
    (holds : Holds orders seen) : Holds (placeAll orders names) (names ++ seen) := by
  induction names generalizing orders seen with
  | nil => exact holds
  | cons first rest ih =>
    intro name
    have later := ih (holds.insert first orders.size) name
    simp only [Interface.placeAll, List.foldl_cons] at later ⊢
    rw [later]
    simp only [List.mem_append, List.cons_append, List.mem_cons]
    tauto

/-- The counting loop stops at the block at which reading names stops, with the same error. -/
private theorem placed_eq_map {path : String} {orders : SortedMap Nat} {seen : List String}
    {blocks : List Hcl.Block} (holds : Holds orders seen) :
    placed path orders blocks =
      (named path seen blocks).map fun found => placeAll orders (found.map (·.1)) := by
  induction blocks generalizing orders seen with
  | nil => rfl
  | cons block rest ih =>
    simp only [placed, named]
    cases blockName block with
    | error fault => rfl
    | ok name =>
      by_cases old : name ∈ seen
      · simp only [(holds name).mpr old, old, if_true]
        rfl
      · have absent : ¬ orders.contains name = true := fun known => old ((holds name).mp known)
        simp only [absent, old, if_false]
        -- The map and the names that were seen have grown by the same name.
        rw [ih (holds.insert name orders.size)]
        cases named path (name :: seen) rest <;> rfl

/-- The same over files, whatever names have places before the first one. -/
private theorem foldlM_placed_eq_map {orders : SortedMap Nat} {seen : List String}
    {files : List SourceFile} (holds : Holds orders seen) :
    files.foldlM (fun orders file => placed file.path orders (file.body.blocksOf "variable")) orders =
      (namedIn "variable" seen files).map fun found => placeAll orders (found.map (·.1)) := by
  induction files generalizing orders seen with
  | nil => rfl
  | cons file rest ih =>
    rw [List.foldlM_cons, placed_eq_map holds, namedIn]
    cases named file.path seen (file.body.blocksOf "variable") with
    | error error => rfl
    | ok here =>
      calc rest.foldlM (fun orders file => placed file.path orders (file.body.blocksOf "variable"))
            (Interface.placeAll orders (here.map (·.1)))
          = (namedIn "variable" (here.map (·.1) ++ seen) rest).map fun found =>
              Interface.placeAll (Interface.placeAll orders (here.map (·.1))) (found.map (·.1)) :=
            ih (holds.placeAll _)
        _ = _ := by
            cases reading : namedIn "variable" (here.map (·.1) ++ seen) rest <;>
              simp [reading, bind, Except.bind, pure, Except.pure, Except.map, Interface.placeAll]

theorem variableOrders_eq_map (files : List SourceFile) :
    variableOrders files =
      (namedIn "variable" [] files).map fun found => placeAll .empty (found.map (·.1)) :=
  foldlM_placed_eq_map holds_empty

/-- New names have the places behind those that were taken, one after the other. -/
private theorem get?_placeAll {orders : SortedMap Nat} {names : List String}
    (absent : ∀ name ∈ names, orders.get? name = none) (distinct : names.Nodup)
    {name : String} {place : Nat} :
    (placeAll orders names).get? name = some place ↔
      orders.get? name = some place ∨ ∃ k, names[k]? = some name ∧ place = orders.size + k := by
  induction names generalizing orders with
  | nil => simp [placeAll]
  | cons first rest ih =>
    obtain ⟨fresh, others⟩ := List.nodup_cons.mp distinct
    have free : orders.get? first = none := absent first (by simp)
    have later : ∀ other ∈ rest, (orders.insert first orders.size).get? other = none := by
      intro other member
      have different : other ≠ first := fun same => fresh (same ▸ member)
      simpa [different] using absent other (by simp [member])
    change (placeAll (orders.insert first orders.size) rest).get? name = some place ↔ _
    -- A place is that of the first name, or one behind it, or was taken before.
    rw [ih later others, SortedMap.size_insert _ free, SortedMap.get?_insert]
    constructor
    · rintro (here | ⟨k, chosen, rfl⟩)
      · by_cases same : name = first
        · refine .inr ⟨0, by simp [same], ?_⟩
          simpa [same] using here.symm
        · exact .inl (by simpa [same] using here)
      · exact .inr ⟨k + 1, by simpa using chosen, by omega⟩
    · rintro (old | ⟨k, chosen, rfl⟩)
      · have different : name ≠ first := by
          rintro rfl
          rw [free] at old
          cases old
        exact .inl (by simpa [different] using old)
      · cases k with
        | zero =>
          obtain rfl : first = name := by simpa using chosen
          exact .inl (by simp)
        | succ k => exact .inr ⟨k, by simpa using chosen, by omega⟩

theorem get?_placeAll_empty {names : List String} (distinct : names.Nodup) {name : String}
    {place : Nat} : (placeAll .empty names).get? name = some place ↔ names[place]? = some name := by
  have free : ∀ name ∈ names, (SortedMap.empty : SortedMap Nat).get? name = none := by simp
  have none : (SortedMap.empty : SortedMap Nat).size = 0 := rfl
  simp [get?_placeAll free distinct, none]

/-- The interface of blocks that were given names, without places. -/
def unplaced (inputs outputs : List (String × Hcl.Block)) : Interface where
  inputs := inputs.map fun (name, block) => variableOf name block
  outputs := outputs.map fun (name, block) => outputOf name block

/-- Where outputs can be named, the loop over both kinds stops only at variables. -/
private theorem declared_eq_map {seenInputs seenOutputs : List String} {files : List SourceFile}
    {outputs : List (String × Hcl.Block)}
    (read : namedIn "output" seenOutputs files = .ok outputs) :
    declared seenInputs seenOutputs files =
      (namedIn "variable" seenInputs files).map fun inputs => unplaced inputs outputs := by
  induction files generalizing seenInputs seenOutputs outputs with
  | nil =>
    cases read
    rfl
  | cons file rest ih =>
    simp only [namedIn, bind_eq_ok_iff, pure_eq_ok_iff] at read
    obtain ⟨here, first, later, others, rfl⟩ := read
    -- The outputs of this file and of all later ones have names, so only variables can stop it.
    rw [declared, namedIn]
    cases named file.path seenInputs (file.body.blocksOf "variable") with
    | error error => rfl
    | ok inputs =>
      simp only [first, bind, Except.bind, ih others]
      cases namedIn "variable" (inputs.map (·.1) ++ seenInputs) rest <;>
        simp [pure, Except.pure, Except.map, unplaced]

private theorem exists_namedIn_output_of_declared {seenInputs seenOutputs : List String}
    {files : List SourceFile} {interface : Interface}
    (read : declared seenInputs seenOutputs files = .ok interface) :
    ∃ outputs, namedIn "output" seenOutputs files = .ok outputs := by
  induction files generalizing seenInputs seenOutputs interface with
  | nil => exact ⟨[], rfl⟩
  | cons file rest ih =>
    simp only [declared, bind_eq_ok_iff, pure_eq_ok_iff] at read
    obtain ⟨_, _, here, first, _, others, _⟩ := read
    obtain ⟨later, tail⟩ := ih others
    exact ⟨here ++ later, by simp [namedIn, first, tail, bind, Except.bind, pure, Except.pure]⟩

/-- The interface of blocks that were given names, every variable with its place. -/
def assembled (inputs outputs : List (String × Hcl.Block)) : Interface where
  inputs := inputs.map fun (name, block) =>
    { variableOf name block with
      order := (placeAll .empty (inputs.map (·.1))).get? name }
  outputs := outputs.map fun (name, block) => outputOf name block

theorem ofFiles_eq_map {files : List SourceFile} {outputs : List (String × Hcl.Block)}
    (read : namedIn "output" [] files = .ok outputs) :
    ofFiles files = (namedIn "variable" [] files).map fun inputs => assembled inputs outputs := by
  rw [ofFiles, declared_eq_map read, variableOrders_eq_map]
  cases namedIn "variable" [] files with
  | error error => rfl
  | ok inputs =>
    simp [bind, Except.bind, pure, Except.pure, Except.map, unplaced, assembled, variableOf]

/-- An interface is read exactly when blocks of both kinds can be named. -/
theorem ofFiles_eq_ok_iff {files : List SourceFile} {interface : Interface} :
    ofFiles files = .ok interface ↔ ∃ inputs outputs, namedIn "variable" [] files = .ok inputs ∧
      namedIn "output" [] files = .ok outputs ∧ assembled inputs outputs = interface := by
  constructor
  · intro read
    obtain ⟨bare, declares, _⟩ := bind_eq_ok_iff.mp read
    obtain ⟨outputs, named⟩ := exists_namedIn_output_of_declared declares
    rw [ofFiles_eq_map named] at read
    obtain ⟨inputs, found, same⟩ := map_eq_ok_iff.mp read
    exact ⟨inputs, outputs, found, named, same⟩
  · rintro ⟨inputs, outputs, found, named, rfl⟩
    rw [ofFiles_eq_map named, found]
    rfl

theorem exists_namedIn_iff {kind : String} {files : List SourceFile} :
    (∃ found, namedIn kind [] files = .ok found) ↔ ¬ AtFault (blocksIn kind files) := by
  simp only [namedIn_eq_ok_iff, accepted_iff_not_atFault]

theorem ofFiles_error_iff {files : List SourceFile} :
    (∃ error, ofFiles files = .error error) ↔
      AtFault (blocksIn "variable" files) ∨ AtFault (blocksIn "output" files) := by
  have read : (∃ interface, ofFiles files = .ok interface) ↔
      ¬ AtFault (blocksIn "variable" files) ∧ ¬ AtFault (blocksIn "output" files) := by
    simp only [← exists_namedIn_iff, ofFiles_eq_ok_iff]
    constructor
    · rintro ⟨_, inputs, outputs, found, named, _⟩
      exact ⟨⟨inputs, found⟩, outputs, named⟩
    · rintro ⟨⟨inputs, found⟩, outputs, named⟩
      exact ⟨_, inputs, outputs, found, named, rfl⟩
  rw [exists_error_iff, read]
  tauto

theorem variableOrders_error_iff {files : List SourceFile} :
    (∃ error, variableOrders files = .error error) ↔ AtFault (blocksIn "variable" files) := by
  simp only [variableOrders_eq_map, map_eq_error_iff]
  rw [exists_error_iff, exists_namedIn_iff, Classical.not_not]

/-- Whatever is wrong with a name, the error says in which file and what. -/
private theorem validation_of_named {path : String} {seen : List String} {blocks : List Hcl.Block}
    {error : Error} (failed : named path seen blocks = .error error) :
    ∃ message, error = .validation path message := by
  induction blocks generalizing seen with
  | nil => cases failed
  | cons block rest ih =>
    simp only [named] at failed
    split at failed
    · cases failed
      exact ⟨_, rfl⟩
    · split at failed
      · cases failed
        exact ⟨_, rfl⟩
      · exact ih (map_eq_error_iff.mp failed)

private theorem validation_of_namedIn {kind : String} {seen : List String} {files : List SourceFile}
    {error : Error} (failed : namedIn kind seen files = .error error) :
    ∃ file ∈ files, ∃ message, error = .validation file.path message := by
  induction files generalizing seen with
  | nil => cases failed
  | cons file rest ih =>
    simp only [namedIn, bind_eq_error_iff, pure_ne_error, and_false, exists_false, or_false]
      at failed
    rcases failed with here | ⟨_, _, later⟩
    · exact ⟨file, by simp, validation_of_named here⟩
    · obtain ⟨other, member, message⟩ := ih later
      exact ⟨other, by simp [member], message⟩

private theorem validation_of_declared {seenInputs seenOutputs : List String}
    {files : List SourceFile}
    {error : Error} (failed : declared seenInputs seenOutputs files = .error error) :
    ∃ file ∈ files, ∃ message, error = .validation file.path message := by
  induction files generalizing seenInputs seenOutputs with
  | nil => cases failed
  | cons file rest ih =>
    simp only [declared, bind_eq_error_iff, pure_ne_error, and_false, exists_false, or_false]
      at failed
    rcases failed with inputs | ⟨_, _, outputs | ⟨_, _, later⟩⟩
    · exact ⟨file, by simp, validation_of_named inputs⟩
    · exact ⟨file, by simp, validation_of_named outputs⟩
    · obtain ⟨other, member, message⟩ := ih later
      exact ⟨other, by simp [member], message⟩

theorem validation_of_variableOrders {files : List SourceFile} {error : Error}
    (failed : variableOrders files = .error error) :
    ∃ file ∈ files, ∃ message, error = .validation file.path message := by
  rw [variableOrders_eq_map, map_eq_error_iff] at failed
  exact validation_of_namedIn failed

theorem validation_of_ofFiles {files : List SourceFile} {error : Error}
    (failed : ofFiles files = .error error) :
    ∃ file ∈ files, ∃ message, error = .validation file.path message := by
  simp only [ofFiles, bind_eq_error_iff, pure_ne_error, and_false, exists_false, or_false] at failed
  rcases failed with bare | ⟨_, _, orders⟩
  · exact validation_of_declared bare
  · exact validation_of_variableOrders orders

end Blueprint.Interface
