import Blueprint.Proofs.Effects
import Blueprint.Proofs.Metadata.CrossFormat
import Blueprint.Proofs.Metadata.Generated

/-!
# Reading back what a run wrote

A document is written in the format that was asked for, or else in that of its path, and it is read
in the format of its path. It is found again exactly if both are the same, or JSON with portable
texts is read as YAML, and it nests no deeper than a reader goes. YAML under the name of a JSON file
is never found again.
-/

namespace Blueprint

namespace Format

/-- How deep a document may nest to be read. -/
def maxDepth : Format → Nat
  | yaml => Yaml.maxDepth
  | json => Json.maxDepth

end Format

namespace Metadata

/-! ## Formats -/

/-- What is written in one format makes sense in another: the formats are the same, or all texts are
portable from JSON. -/
def Legible (document : Metadata) (written asked : Format) : Prop :=
  written = asked ∨ (written = .json ∧ document.toValue.Portable)

private theorem nesting_of_read? {format : Format} {text : String} {document : Metadata}
    (read : read? format text = some document) :
    document.toValue.nesting ≤ format.maxDepth := by
  cases format with
  | yaml => exact (accepted_of_read?_yaml read).2
  | json => exact (accepted_of_read?_json read).2

/-- A legible document that is shallow enough is found again, without its nulls. -/
private theorem read?_render {document : Metadata} {written asked : Format} (exact : document.Exact)
    (legible : document.Legible written asked)
    (shallow : document.toValue.nesting ≤ asked.maxDepth) (spread : Bool) :
    read? asked (document.render written spread) = some document.withoutNulls := by
  rcases legible with rfl | ⟨rfl, portable⟩
  · cases written with
    | yaml => exact read?_render_yaml exact shallow spread
    | json => exact read?_render_json exact shallow spread
  · cases asked with
    | yaml => exact read?_yaml_render_json exact portable shallow spread
    | json => exact read?_render_json exact shallow spread

/-- No other document is found again. -/
private theorem legible_of_read? {document : Metadata} {written asked : Format} {spread : Bool}
    (exact : document.Exact) (noNull : document.withoutNulls = document)
    (read : read? asked (document.render written spread) = some document) :
    document.Legible written asked := by
  cases written with
  | yaml =>
    cases asked with
    | yaml => exact .inl rfl
    | json =>
      rw [read?_json_render_yaml] at read
      cases read
  | json =>
    cases asked with
    | yaml => exact .inr ⟨rfl, portable_of_read?_yaml exact noNull (nesting_of_read? read) read⟩
    | json => exact .inl rfl

private theorem read?_render_iff {document : Metadata} {written asked : Format}
    (exact : document.Exact)
    (noNull : document.withoutNulls = document) (spread : Bool) :
    read? asked (document.render written spread) = some document ↔
      document.Legible written asked ∧ document.toValue.nesting ≤ asked.maxDepth := by
  constructor
  · intro read
    exact ⟨legible_of_read? exact noNull read, nesting_of_read? read⟩
  · rintro ⟨legible, shallow⟩
    have found := read?_render exact legible shallow spread
    rwa [noNull] at found

/-! ## Files -/

/-- The document in a file is read from the text that the file holds. -/
private theorem load_of_read {fs : FileSystem} {path text : String}
    (holds : fs.read path = .ok text.toUTF8) : load fs path = parse path (.ofPath path) text := by
  have found : fs.readText path = .ok text := by
    rw [FileSystem.readText, holds, ok_bind, fromUTF8?_toUTF8]
    rfl
  rw [load, found]

private theorem exists_read?_of_load {fs : FileSystem} {path : String} {document : Metadata}
    (loaded : load fs path = .ok document) : ∃ text, read? (.ofPath path) text = some document := by
  rw [load] at loaded
  split at loaded
  · rename_i text _
    exact ⟨text, parse_eq_ok_iff.mp loaded⟩
  · cases loaded
  · cases loaded

end Metadata

namespace Program

open CommandLine

/-- An earlier document was loaded from somewhere. -/
private theorem exists_load_of_loadExisting {fs : FileSystem} {arguments : GenerateArguments}
    {earlier : Metadata} (found : loadExisting fs arguments = .ok (some earlier)) :
    ∃ path, Metadata.load fs path = .ok earlier := by
  rw [loadExisting] at found
  split at found
  · cases found
  · rename_i path _
    obtain ⟨document, loaded, same⟩ := map_eq_ok_iff.mp found
    cases same
    exact ⟨path, loaded⟩

/-- The files hold a document at a path: it is loaded from there, a check of the path succeeds, and
a run that is pointed to the path takes it for the earlier document. -/
structure ReadsBack (files : FileSystem) (path : String) (document : Metadata) : Prop where
  loaded : Metadata.load files path = .ok document
  validated : ∃ report, perform (validate path) files = (.ok report, files)
  taken : ∀ later : GenerateArguments, later.existing = some path →
    loadExisting files later = .ok (some document)

private theorem readsBack_iff {files : FileSystem} {path : String} {document : Metadata} :
    ReadsBack files path document ↔ Metadata.load files path = .ok document := by
  refine ⟨(·.loaded), fun loaded => ⟨loaded, ?_, fun later pointed => ?_⟩⟩
  · exact ⟨_, perform_reading_bind_eq_ok_iff.mpr ⟨document, loaded, perform_pure _ _⟩⟩
  · have place : existingPath? files later = some path := by
      rw [existingPath?, pointed, Option.some_or]
    simp only [loadExisting, place, loaded, Except.map]

/-! ## Runs -/

/-- What a run that is asked for a document makes it of: the configuration and the files that it
finds, and the document that it was pointed to. -/
def Makes (tools : String → Tool) (env : Environment) (fs : FileSystem) (invocation : Invocation)
    (arguments : GenerateArguments) (document : Metadata) : Prop :=
  ∃ config existing, loadConfig env fs invocation.config = .ok config ∧
    loadExisting fs arguments = .ok existing ∧
    Metadata.generate (config.withArguments arguments) fs
      (stateSource? tools fs (config.withArguments arguments) arguments) arguments.path
      (arguments.blueprintRoot.getD arguments.path) existing = .ok document

section Runs

variable {tools : String → Tool} {env : Environment} {fs : FileSystem} {commandLine : List String}
  {invocation : Invocation} {arguments : GenerateArguments} {path : String} {document : Metadata}

private theorem Makes.unique {other : Metadata}
    (made : Makes tools env fs invocation arguments document)
    (again : Makes tools env fs invocation arguments other) : document = other := by
  obtain ⟨config, existing, loaded, found, generated⟩ := made
  obtain ⟨config', existing', loaded', found', generated'⟩ := again
  cases loaded.symm.trans loaded'
  cases found.symm.trans found'
  exact Except.ok.inj (generated.symm.trans generated')

/-- A document that is written has the format that was asked for, or else that of its path; the
configured format does not matter. -/
private theorem formatFor_eq {config : Config} (output : arguments.output = some path) :
    formatFor (config.withArguments arguments) arguments = arguments.format.getD (.ofPath path) := by
  rw [formatFor, output]
  cases asked : arguments.format with
  | none => rfl
  | some format => simp [Config.withArguments, asked]

/-- What a run has made is settled, also where it took an earlier document over. -/
private theorem Makes.settled (made : Makes tools env fs invocation arguments document) :
    document.Settled := by
  obtain ⟨config, existing, -, found, generated⟩ := made
  apply Metadata.settled_of_generate _ generated
  intro earlier isEarlier
  obtain ⟨place, loaded⟩ := exists_load_of_loadExisting (isEarlier ▸ found)
  obtain ⟨text, read⟩ := Metadata.exists_read?_of_load loaded
  exact Metadata.canonicalTypes_of_read? read

/-- A run that succeeds has done what its invocation asks for. -/
private theorem execute_of_succeeded (parsed : CommandLine.parse env commandLine = .ok invocation)
    (succeeded : (run tools env fs commandLine).exitCode = 0) :
    ∃ output, perform (execute tools env invocation) fs =
      (.ok output, (run tools env fs commandLine).files) := by
  rw [run, parsed] at succeeded ⊢
  obtain ⟨result, files, done⟩ : ∃ result files,
      perform (execute tools env invocation) fs = (result, files) := ⟨_, _, rfl⟩
  cases result with
  | error exitCode =>
    simp only [done] at succeeded
    exact absurd (succeeded ▸ done) execute_ne_error_zero
  | ok output =>
    refine ⟨output, ?_⟩
    simp only [done]

/-- A run that was asked to write a document leaves its text at the path. -/
private theorem holds_of_run (parsed : CommandLine.parse env commandLine = .ok invocation)
    (asked : invocation.command = .generate arguments) (output : arguments.output = some path)
    (succeeded : (run tools env fs commandLine).exitCode = 0) :
    ∃ document spread, Makes tools env fs invocation arguments document ∧
      (run tools env fs commandLine).files.read path =
        .ok (document.render (arguments.format.getD (.ofPath path)) spread).toUTF8 := by
  obtain ⟨printed, done⟩ := execute_of_succeeded parsed succeeded
  obtain ⟨config, loaded, promised⟩ := execute_eq_ok done
  simp only [asked, Promised, output] at promised
  obtain ⟨existing, document, place, found, made, written⟩ := promised
  refine ⟨document, (config.withArguments arguments).output.pretty,
    ⟨config, existing, loaded, found, made⟩, ?_⟩
  rw [written.holds, formatFor_eq output]

end Runs

/-- A document without floating point numbers and nulls that a run wrote to a path is read back from
there exactly if it is legible in the format of the path and, by then, shallow enough; unless
another format was asked for, it is legible. YAML is never read back from the path of a JSON
file. -/
theorem run_reads_back (tools : String → Tool) (env : Environment) (fs : FileSystem)
    (commandLine : List String) {invocation : Invocation} {arguments : GenerateArguments}
    {path : String} (parsed : CommandLine.parse env commandLine = .ok invocation)
    (asked : invocation.command = .generate arguments) (output : arguments.output = some path)
    (succeeded : (run tools env fs commandLine).exitCode = 0) :
    let files := (run tools env fs commandLine).files
    let written := arguments.format.getD (.ofPath path)
    ∃ document, Makes tools env fs invocation arguments document ∧
      (document.FloatFree → document.withoutNulls = document →
        document.spec.interfaces.inputs.length ≤ 18446744073709551616 →
        (ReadsBack files path document ↔
          document.Legible written (.ofPath path) ∧
            document.toValue.nesting ≤ (Format.ofPath path).maxDepth)) ∧
      (written = .yaml → Format.ofPath path = .json →
        Metadata.load files path = .error (.metadata path)) := by
  intro files written
  obtain ⟨document, spread, made, holds⟩ := holds_of_run parsed asked output succeeded
  have loads := Metadata.load_of_read holds
  -- What the run wrote is read as what was rendered, so both parts are about rendering and parsing.
  refine ⟨document, made, fun floatFree noNull countable => ?_, fun inYaml asJson => ?_⟩
  · have exact := made.settled.exact floatFree countable
    rw [readsBack_iff, loads, Metadata.parse_eq_ok_iff]
    exact Metadata.read?_render_iff exact noNull spread
  · have inYaml : arguments.format.getD (.ofPath path) = .yaml := inYaml
    have lost := document.read?_json_render_yaml spread
    rw [loads, inYaml, asJson, Metadata.parse, lost]

/-- A blueprint with a default that JSON spreads over several lines. -/
def sizedFiles : FileSystem where
  root := .directory [("bp", .directory [("main.tf", .file
    "variable \"sizes\" \x7b default = \x7b b = [1, null], a = \"\\t'\u2028.\" \x7d \x7d\n".toUTF8)])]
  workingDirectory := []

/-- Its document. -/
def sizedDocument : Metadata where
  resource := { name := "bp" }
  spec :=
    { interfaces :=
        { inputs :=
            [{ name := "sizes", order := some 0
               defaultValue := some (.object
                 [("a", .string "\t'\u2028."),
                  ("b", .array [.number (.whole ⟨1, by decide⟩), .null])]) }] } }

/-- A run on it that is asked for JSON where YAML will be read. -/
def sizedLine : List String :=
  ["generate", "bp", "--format", "json", "--output", "x.yaml"]

def sizedArguments : GenerateArguments :=
  { path := "bp", output := some "x.yaml", format := some .json }

theorem run_reads_back_sized :
    CommandLine.parse .empty sizedLine = .ok ⟨none, 0, false, .generate sizedArguments⟩ ∧
    sizedDocument.FloatFree ∧ sizedDocument.withoutNulls = sizedDocument ∧
    sizedDocument.Legible .json .yaml ∧
    sizedDocument.toValue.nesting ≤ Format.yaml.maxDepth ∧
    (run (fun _ => .missing) .empty sizedFiles sizedLine).exitCode = 0 ∧
    ReadsBack (run (fun _ => .missing) .empty sizedFiles sizedLine).files "x.yaml" sizedDocument := by
  have parsed : CommandLine.parse .empty sizedLine =
      .ok ⟨none, 0, false, .generate sizedArguments⟩ := eq_ok_of_toOption (by decide +kernel)
  have succeeded : (run (fun _ => .missing) .empty sizedFiles sizedLine).exitCode = 0 := by
    decide +kernel
  have configured : loadConfig .empty sizedFiles none = .ok {} := rfl
  have alone : loadExisting sizedFiles sizedArguments = .ok none :=
    eq_ok_of_toOption (by decide +kernel)
  have made :
      Metadata.generate (Config.withArguments {} sizedArguments) sizedFiles none "bp" "bp" none =
      .ok sizedDocument := eq_ok_of_toOption (by decide +kernel)
  have floatFree : sizedDocument.FloatFree := by decide +kernel
  have noNull : sizedDocument.withoutNulls = sizedDocument := by decide +kernel
  have legible : sizedDocument.Legible .json .yaml := .inr ⟨rfl, by decide +kernel⟩
  have shallow : sizedDocument.toValue.nesting ≤ Format.yaml.maxDepth := by decide +kernel
  have isYaml : Format.ofPath "x.yaml" = .yaml := by decide
  obtain ⟨document, makes, found, -⟩ := run_reads_back (fun _ => .missing) .empty sizedFiles sizedLine
    parsed rfl rfl succeeded
  obtain rfl : document = sizedDocument := makes.unique ⟨{}, none, configured, alone, made⟩
  have readsBack := found floatFree noNull (by decide) |>.mpr
    ⟨by rwa [isYaml], by rwa [isYaml]⟩
  exact ⟨parsed, floatFree, noNull, legible, shallow, succeeded, readsBack⟩

/-! ## Documents that are lost -/

/-- A run writes a document without floating point numbers and nulls that is not read back. -/
def Loses (tools : String → Tool) (env : Environment) (fs : FileSystem) (commandLine : List String) :
    Prop :=
  ∃ invocation arguments path document,
    CommandLine.parse env commandLine = .ok invocation ∧
    invocation.command = .generate arguments ∧ arguments.output = some path ∧
    (run tools env fs commandLine).exitCode = 0 ∧
    Makes tools env fs invocation arguments document ∧ document.FloatFree ∧
    document.withoutNulls = document ∧
    ¬ ReadsBack (run tools env fs commandLine).files path document

/-- A document is not read back where its text is read as another document, or as none. -/
private theorem not_readsBack_of_run {tools : String → Tool} {env : Environment} {fs : FileSystem}
    {commandLine : List String} {invocation : Invocation} {arguments : GenerateArguments}
    {path : String} {document : Metadata}
    (parsed : CommandLine.parse env commandLine = .ok invocation)
    (asked : invocation.command = .generate arguments) (output : arguments.output = some path)
    (succeeded : (run tools env fs commandLine).exitCode = 0)
    (made : Makes tools env fs invocation arguments document)
    (different : ∀ spread, Metadata.read? (.ofPath path)
      (document.render (arguments.format.getD (.ofPath path)) spread) ≠ some document) :
    ¬ ReadsBack (run tools env fs commandLine).files path document := by
  obtain ⟨written, spread, madeToo, holds⟩ := holds_of_run parsed asked output succeeded
  obtain rfl := made.unique madeToo
  rw [readsBack_iff, Metadata.load_of_read holds, Metadata.parse_eq_ok_iff]
  exact different spread

/-- A blueprint with a variable of which only a description is known. -/
def describing (description : String) : FileSystem where
  root := .directory [("bp", .directory [("main.tf", .file
    ("variable \"v\" \x7b description = \"" ++ description ++ "\" \x7d\n").toUTF8)])]
  workingDirectory := []

/-- Its document. -/
def described (description : String) : Metadata where
  resource := { name := "bp" }
  spec :=
    { interfaces :=
        { inputs := [{ name := "v", description, required := true, order := some 0 }] } }

/-- A run on it that is asked for a format and a path. -/
def askingLine (format : Format) (path : String) : List String :=
  ["generate", "bp", "--format", format.name, "--output", path]

def asking (format : Format) (path : String) : GenerateArguments :=
  { path := "bp", output := some path, format := some format }

private theorem loses_described {description path : String} {format : Format}
    (parsed : (CommandLine.parse .empty (askingLine format path)).toOption =
      some ⟨none, 0, false, .generate (asking format path)⟩)
    (succeeded : (run (fun _ => .missing) .empty (describing description)
      (askingLine format path)).exitCode = 0)
    (alone : (loadExisting (describing description) (asking format path)).toOption = some none)
    (made : (Metadata.generate (Config.withArguments {} (asking format path))
      (describing description) none "bp" "bp" none).toOption = some (described description))
    (different : ∀ spread, Metadata.read? (.ofPath path)
      ((described description).render format spread) ≠ some (described description)) :
    Loses (fun _ => .missing) .empty (describing description) (askingLine format path) := by
  have parsed := eq_ok_of_toOption parsed
  have makes : Makes (fun _ => .missing) .empty (describing description)
      ⟨none, 0, false, .generate (asking format path)⟩ (asking format path)
      (described description) := ⟨{}, none, rfl, eq_ok_of_toOption alone, eq_ok_of_toOption made⟩
  have floatFree : (described description).FloatFree := by
    constructor
    · intro v member value found
      obtain rfl := List.mem_singleton.mp member
      cases found
    · exact fun _ member => nomatch member
  exact ⟨_, _, path, _, parsed, rfl, rfl, succeeded, makes, floatFree, rfl,
    not_readsBack_of_run parsed rfl rfl succeeded makes different⟩

/-- Texts that are not portable: YAML does not allow for the first one, takes the line end in the
second one for a blank, and drops the blank behind the line end in the third one. -/
def unportableTexts : List String :=
  ["\x7f", "a\x85b", "\u2028 "]

private theorem read?_yaml_described : ∀ description ∈ unportableTexts, ∀ spread,
    Metadata.read? .yaml ((described description).render .json spread) ≠
      some (described description) := by
  intro description member spread
  rw [Metadata.read?_yaml_jsonText]
  revert description
  cases spread <;> decide +kernel

/-- A document may be lost though the run that wrote it succeeded: in YAML under the name of a JSON
file, and in JSON under another name if its texts are not portable. -/
theorem exists_lost_document :
    Loses (fun _ => .missing) .empty (describing "") (askingLine .yaml "x.json") ∧
    ∀ description ∈ unportableTexts,
      Loses (fun _ => .missing) .empty (describing description) (askingLine .json "x.yaml") := by
  constructor
  · have asJson : Format.ofPath "x.json" = .json := by decide
    have different (spread : Bool) :
        Metadata.read? (.ofPath "x.json") ((described "").render .yaml spread) ≠
          some (described "") := by
      rw [asJson, Metadata.read?_json_render_yaml]
      exact nofun
    exact loses_described (by decide +kernel) (by decide +kernel) (by decide +kernel)
      (by decide +kernel) different
  · have asYaml : Format.ofPath "x.yaml" = .yaml := by decide
    have succeeded : ∀ description ∈ unportableTexts, (run (fun _ => .missing) .empty
        (describing description) (askingLine .json "x.yaml")).exitCode = 0 := by decide +kernel
    have alone : ∀ description ∈ unportableTexts, (loadExisting (describing description)
        (asking .json "x.yaml")).toOption = some none := by decide +kernel
    have made : ∀ description ∈ unportableTexts,
        (Metadata.generate (Config.withArguments {} (asking .json "x.yaml")) (describing description)
          none "bp" "bp" none).toOption = some (described description) := by decide +kernel
    intro description member
    exact loses_described (by decide +kernel) (succeeded description member)
      (alone description member) (made description member)
      (asYaml ▸ read?_yaml_described description member)

end Program
end Blueprint
