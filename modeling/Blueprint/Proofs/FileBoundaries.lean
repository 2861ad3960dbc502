import Blueprint.Generate
import Blueprint.Proofs.Interface.Orders
import Blueprint.Proofs.Tolerance

/-!
# File boundaries

A blueprint says what its source files say one after the other; where one file ends and the next one
starts makes no difference to its document. An interface is read file by file, so that a cut can
change which of several faults is found first, but not whether there is one: a list of files is read
exactly when the blocks in it can be named, and these are blocks of the whole.
-/

namespace Blueprint

/-- Two computations with the same result, or two that fail in the same way. Errors about the
contents of files may be about different files. -/
inductive SameOutcome {α : Type} : Except Error α → Except Error α → Prop where
  | result (value : α) : SameOutcome (.ok value) (.ok value)
  | invalid (path message path' message' : String) :
      SameOutcome (.error (.validation path message)) (.error (.validation path' message'))
  | failure (error : Error) : SameOutcome (.error error) (.error error)

namespace SameOutcome

variable {α β : Type} {first second : Except Error α}

private theorem refl (outcome : Except Error α) : SameOutcome outcome outcome := by
  cases outcome with
  | error error => exact .failure error
  | ok value => exact .result value

private theorem bind {next next' : α → Except Error β} (same : SameOutcome first second)
    (later : ∀ value, SameOutcome (next value) (next' value)) :
    SameOutcome (first >>= next) (second >>= next') := by
  cases same with
  | result value => exact later value
  | invalid path message path' message' => exact .invalid path message path' message'
  | failure error => exact .failure error

private theorem map (f : α → β) (same : SameOutcome first second) :
    SameOutcome (first.map f) (second.map f) := by
  cases same with
  | result value => exact .result (f value)
  | invalid path message path' message' => exact .invalid path message path' message'
  | failure error => exact .failure error

private theorem ok_iff (same : SameOutcome first second) (value : α) :
    first = .ok value ↔ second = .ok value := by
  cases same <;> simp

private theorem validation_iff (same : SameOutcome first second) :
    (∃ path message, first = .error (.validation path message)) ↔
      ∃ path message, second = .error (.validation path message) := by
  cases same <;> simp

end SameOutcome

namespace Interface

private theorem blocksIn_eq_blocksOf (kind : String) (files : List SourceFile) :
    blocksIn kind files = Hcl.Body.blocksOf (files.flatMap (·.body)) kind := by
  induction files with
  | nil => rfl
  | cons file rest ih =>
    rw [List.flatMap_cons, Hcl.Body.blocksOf_append, ← ih]
    rfl

/-- An interface depends on what files say one after the other. -/
private theorem ofFiles_eq_ok_congr {files files' : List SourceFile} (interface : Interface)
    (same : files.flatMap (·.body) = files'.flatMap (·.body)) :
    ofFiles files = .ok interface ↔ ofFiles files' = .ok interface := by
  simp only [ofFiles_eq_ok_iff, namedIn_eq_ok_iff, blocksIn_eq_blocksOf, same]

private theorem sameOutcome_ofFiles {files files' : List SourceFile}
    (same : files.flatMap (·.body) = files'.flatMap (·.body)) :
    SameOutcome (ofFiles files) (ofFiles files') := by
  cases read : ofFiles files with
  | ok interface =>
    rw [(ofFiles_eq_ok_congr interface same).mp read]
    exact .result interface
  | error error =>
    cases read' : ofFiles files' with
    | ok interface =>
      rw [(ofFiles_eq_ok_congr interface same).mpr read'] at read
      cases read
    | error error' =>
      -- The two sides may have found different faults, but both of them have found one in a name.
      obtain ⟨_, _, _, rfl⟩ := validation_of_ofFiles read
      obtain ⟨_, _, _, rfl⟩ := validation_of_ofFiles read'
      exact .invalid _ _ _ _

end Interface

/-- Two file systems that differ at a path only in how the statements there are divided into files:
the directory is in both or in neither, under the same name, and what its files say one after the
other is the same. All of them can be read. -/
structure Redistributed (options : ScanOptions) (fs fs' : FileSystem) (path : String) : Prop where
  directory : (fs.directory? path).isSome = (fs'.directory? path).isSome
  name : (fs.directory? path).isSome = true → fs.name? path = fs'.name? path
  statements : (fs.directory? path).isSome = true → ∃ files files',
    Scan.directory options fs path = .ok { files } ∧
    Scan.directory options fs' path = .ok { files := files' } ∧
    files.flatMap (·.body) = files'.flatMap (·.body)

/-- A directory that is not there is not there on either side. -/
private theorem Redistributed.missing {options : ScanOptions} {fs fs' : FileSystem} {path : String}
    (redistributed : Redistributed options fs fs' path)
    (missing : ¬ (fs.directory? path).isSome = true) :
    fs.directory? path = none ∧ fs'.directory? path = none := by
  have missing' := redistributed.directory ▸ missing
  exact ⟨by simpa using missing, by simpa using missing'⟩

private theorem Requirements.ofSetup_of_redistributed {config : Config} {fs fs' : FileSystem}
    {root : String}
    (name : String)
    (setup : Redistributed config.scan fs fs' (Path.join root config.requirements.setupPath)) :
    ofSetup config fs root name = ofSetup config fs' root name := by
  by_cases found : (fs.directory? (Path.join root config.requirements.setupPath)).isSome = true
  · obtain ⟨files, files', scanned, scanned', same⟩ := setup.statements found
    obtain ⟨_, here⟩ := Option.isSome_iff_exists.mp found
    obtain ⟨_, there⟩ := Option.isSome_iff_exists.mp (setup.directory ▸ found)
    unfold ofSetup
    simp only [here, there, scanned, scanned', ok_bind, Sources.body, same]
  · obtain ⟨here, there⟩ := setup.missing found
    unfold ofSetup
    simp only [here, there]

namespace Metadata

private theorem sameOutcome_describe {config : Config} {fs fs' : FileSystem}
    {states : Option StateSource}
    {path root : String} (sources : Redistributed config.scan fs fs' path)
    (setup : Redistributed config.scan fs fs' (Path.join root config.requirements.setupPath)) :
    SameOutcome (describe config fs states path root) (describe config fs' states path root) := by
  by_cases found : (fs.directory? path).isSome = true
  · obtain ⟨files, files', scanned, scanned', same⟩ := sources.statements found
    have complete (files : List SourceFile) : Sources.complete { files } = .ok files := rfl
    simp only [describe, scanned, scanned', ok_bind, complete, same, sources.name found,
      Requirements.ofSetup_of_redistributed _ setup]
    -- Only the interface is read from the files themselves; everything else sees what they say.
    refine SameOutcome.bind (Interface.sameOutcome_ofFiles same) fun interface => ?_
    exact .refl _
  · obtain ⟨here, there⟩ := sources.missing found
    have missing {fs : FileSystem} (gone : fs.directory? path = none) :
        Scan.directory config.scan fs path = .error (.directoryNotFound path) := by
      simp [Scan.directory, gone]
    simp only [describe, missing here, missing there]
    exact .failure _

private theorem sameOutcome_generate {config : Config} {fs fs' : FileSystem}
    {states : Option StateSource}
    {path root : String} {existing : Option Metadata}
    (sources : Redistributed config.scan fs fs' path)
    (setup : Redistributed config.scan fs fs' (Path.join root config.requirements.setupPath)) :
    SameOutcome (generate config fs states path root existing)
      (generate config fs' states path root existing) :=
  (sameOutcome_describe sources setup).map _

/-- The document of a blueprint does not depend on how the statements of its directory and of its
setup are divided into files, and neither does whether a fault in a name stops it. For an interface
alone the files may as well be one. -/
theorem generate_of_redistributed (config : Config) (states : Option StateSource)
    (path root : String) (existing : Option Metadata) :
    (∀ fs fs', Redistributed config.scan fs fs' path →
      Redistributed config.scan fs fs' (Path.join root config.requirements.setupPath) →
      (∀ d, generate config fs states path root existing = .ok d ↔
        generate config fs' states path root existing = .ok d) ∧
      ((∃ place message,
          generate config fs states path root existing = .error (.validation place message)) ↔
        ∃ place message,
          generate config fs' states path root existing = .error (.validation place message))) ∧
    ∀ (files : List SourceFile) (place : String) (interface : Interface),
      Interface.ofFiles files = .ok interface ↔
        Interface.ofFiles [⟨place, files.flatMap (·.body)⟩] = .ok interface := by
  refine ⟨fun fs fs' sources setup => ?_, fun files place interface => ?_⟩
  · have same : SameOutcome (generate config fs states path root existing)
        (generate config fs' states path root existing) := sameOutcome_generate sources setup
    exact ⟨same.ok_iff, same.validation_iff⟩
  · exact Interface.ofFiles_eq_ok_congr interface (by simp)

/-- Files whose texts are bodies are read, whether or not errors are tolerated. -/
private theorem readAll_of_read? (tolerant : Bool) {texts : List (String × String × Hcl.Body)}
    (read : ∀ text ∈ texts, Hcl.Body.read? text.2.1 = some text.2.2) :
    Scan.readAll tolerant (texts.map fun (path, text, _) => (path, text.toUTF8)) =
      .ok { files := texts.map fun (path, _, body) => ⟨path, body⟩ } := by
  induction texts with
  | nil => rfl
  | cons head rest ih =>
    obtain ⟨path, text, body⟩ := head
    have here : SourceFile.ofBytes path text.toUTF8 = .ok ⟨path, body⟩ :=
      SourceFile.ofBytes_of_read? (read (path, text, body) (by simp))
    have later := ih fun other member => read other (by simp [member])
    simp only [List.map_cons, Scan.readAll, here, later]
    rfl

/-- A blueprint and its setup, of source files with the given names and texts. -/
def blueprintOf (sources setup : List (String × String)) : FileSystem where
  root := .directory
    [("bp", .directory (sources.map written ++
      [(FileName.ofText "test", Tree.directory [("setup", .directory (setup.map written))])]))]
  workingDirectory := []
where
  written (file : String × String) : FileName × Tree := (file.1, .file file.2.toUTF8)

def outputText : String := "output \"id\" \x7b\x7d\n"
def variableText : String := "variable \"zone\" \x7b\x7d\n"
def rolesText : String := "locals \x7b\n  per_module_roles = \x7broot = [\"r\"]\x7d\n\x7d\n"
def servicesText : String := "locals \x7b\n  per_module_services = \x7broot = [\"s\"]\x7d\n\x7d\n"

/-- Everything in one file, and everything that is needed in another one. -/
def wholeFiles : FileSystem :=
  blueprintOf [("main.tf", outputText ++ variableText)] [("main.tf", rolesText ++ servicesText)]

/-- A file for every statement. -/
def cutFiles : FileSystem :=
  blueprintOf [("a.tf", outputText), ("b.tf", variableText)]
    [("a.tf", rolesText), ("b.tf", servicesText)]

private theorem redistributed_sources : Redistributed {} wholeFiles cutFiles "bp" := by
  have whole : Hcl.Body.read? (outputText ++ variableText) =
      some [.block "output" ["id"] [], .block "variable" ["zone"] []] := by decide +kernel
  have first : Hcl.Body.read? outputText = some [.block "output" ["id"] []] := by decide +kernel
  have second : Hcl.Body.read? variableText = some [.block "variable" ["zone"] []] := by
    decide +kernel
  constructor
  case directory => decide +kernel
  case name => exact fun _ => by decide +kernel
  case statements =>
    intro _
    have here : (wholeFiles.directory? "bp").map (Scan.visited {} "bp") =
        some [("bp/main.tf", (outputText ++ variableText).toUTF8)] := by decide +kernel
    have there : (cutFiles.directory? "bp").map (Scan.visited {} "bp") =
        some [("bp/a.tf", outputText.toUTF8), ("bp/b.tf", variableText.toUTF8)] := by decide +kernel
    have one := @readAll_of_read? true [("bp/main.tf", outputText ++ variableText, _)]
      (by simpa using whole)
    have two := @readAll_of_read? true [("bp/a.tf", outputText, _), ("bp/b.tf", variableText, _)]
      (by simpa using ⟨first, second⟩)
    exact ⟨_, _, (Scan.directory_of_visited here).trans one,
      (Scan.directory_of_visited there).trans two, rfl⟩

/-- A local map that lists one string for the blueprint itself. -/
def rootList (localMap item : String) : Hcl.Structure :=
  .block "locals" [] [.assign localMap (.object [(.name "root", .array [.string item])])]

private theorem redistributed_setup : Redistributed {} wholeFiles cutFiles "bp/test/setup" := by
  have whole : Hcl.Body.read? (rolesText ++ servicesText) =
      some [rootList "per_module_roles" "r", rootList "per_module_services" "s"] := by
    decide +kernel
  have first : Hcl.Body.read? rolesText = some [rootList "per_module_roles" "r"] := by
    decide +kernel
  have second : Hcl.Body.read? servicesText = some [rootList "per_module_services" "s"] := by
    decide +kernel
  constructor
  case directory => decide +kernel
  case name => exact fun _ => by decide +kernel
  case statements =>
    intro _
    have here : (wholeFiles.directory? "bp/test/setup").map (Scan.visited {} "bp/test/setup") =
        some [("bp/test/setup/main.tf", (rolesText ++ servicesText).toUTF8)] := by decide +kernel
    have there : (cutFiles.directory? "bp/test/setup").map (Scan.visited {} "bp/test/setup") =
        some [("bp/test/setup/a.tf", rolesText.toUTF8),
          ("bp/test/setup/b.tf", servicesText.toUTF8)] := by decide +kernel
    have one := @readAll_of_read? true [("bp/test/setup/main.tf", rolesText ++ servicesText, _)]
      (by simpa using whole)
    have two := @readAll_of_read? true
      [("bp/test/setup/a.tf", rolesText, _), ("bp/test/setup/b.tf", servicesText, _)]
      (by simpa using ⟨first, second⟩)
    exact ⟨_, _, (Scan.directory_of_visited here).trans one,
      (Scan.directory_of_visited there).trans two, rfl⟩

def serviceDocument : Metadata where
  resource := { name := "bp" }
  spec :=
    { interfaces :=
        { inputs := [{ name := "zone", required := true, order := some 0 }]
          outputs := [{ name := "id" }] }
      requirements :=
        { roles := [{ level := .project, roles := ["r"] }]
          services := ["s"] } }

theorem generate_of_redistributed_cut :
    (Redistributed {} wholeFiles cutFiles "bp" ∧
      Redistributed {} wholeFiles cutFiles "bp/test/setup") ∧
    generate {} wholeFiles none "bp" "bp" none = .ok serviceDocument ∧
    generate {} cutFiles none "bp" "bp" none = .ok serviceDocument := by
  have made : generate {} wholeFiles none "bp" "bp" none = .ok serviceDocument :=
    eq_ok_of_toOption (by decide +kernel)
  have place : "bp/test/setup" = Path.join "bp" ({} : Config).requirements.setupPath := by
    decide +kernel
  have same := (generate_of_redistributed {} none "bp" "bp" none).1 wholeFiles cutFiles
    redistributed_sources (place ▸ redistributed_setup)
  exact ⟨⟨redistributed_sources, redistributed_setup⟩, made, (same.1 _).mp made⟩

end Metadata
end Blueprint
