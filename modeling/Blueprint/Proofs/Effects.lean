import Blueprint.Proofs.Actions
import Blueprint.Proofs.FileSystem

/-!
# What a run changes

A run that fails leaves the files alone, wherever it failed: every command reads first and writes
last, and a write that fails changes nothing (`failsUnchanged_execute`). What a run that succeeds
has changed depends on its command (`Promised`): nothing for a check, the configuration that was
missing for a start, and for a document the file that it was asked to be written to.
-/

namespace Blueprint

private theorem Error.exitCode_ne_zero (error : Error) : error.exitCode ≠ 0 := by
  unfold exitCode
  split <;> decide

private theorem Metadata.save_eq_ok_iff {fs new : FileSystem} {path : String} {format : Format}
    {spread : Bool} {document : Metadata} :
    save fs path format spread document = .ok new ↔
      fs.write path (document.render format spread).toUTF8 = .ok new := by
  unfold save
  split <;> simp_all

namespace Program

open CommandLine

variable {tools : String → Tool} {env : Environment} {fs new : FileSystem} {output : String}

/-! ## The commands -/

/-- A start finds no configuration and leaves one. -/
private theorem init_eq_ok (done : perform init fs = (.ok output, new)) :
    fs.contains "bpmetadata.yaml" = false ∧
      fs.write "bpmetadata.yaml" Config.exampleText.toUTF8 = .ok new := by
  obtain ⟨_, free, done⟩ := perform_reading_bind_eq_ok_iff.mp done
  obtain ⟨written, -⟩ := perform_writing_eq_ok_iff.mp done
  rw [mapError_eq_ok_iff] at written
  refine ⟨?_, written⟩
  split at free
  · cases free
  · exact Bool.eq_false_iff.mpr ‹_›

private theorem validate_eq_ok {path : String}
    (done : perform (validate path) fs = (.ok output, new)) :
    new = fs := by
  obtain ⟨document, -, done⟩ := perform_reading_bind_eq_ok_iff.mp done
  cases done
  rfl

/-- A document that was made is printed, or written to the file that is asked for. -/
private theorem generate_eq_ok {config : Config} {arguments : GenerateArguments}
    (done : perform (generate tools config arguments) fs = (.ok output, new)) :
    ∃ existing document, loadExisting fs arguments = .ok existing ∧
      Metadata.generate config fs (stateSource? tools fs config arguments) arguments.path
        (arguments.blueprintRoot.getD arguments.path) existing = .ok document ∧
      match arguments.output with
      | none => new = fs
      | some path =>
        fs.write path (document.render (formatFor config arguments) config.output.pretty).toUTF8 =
          .ok new := by
  obtain ⟨existing, loaded, done⟩ := perform_reading_bind_eq_ok_iff.mp done
  obtain ⟨document, made, done⟩ := perform_reading_bind_eq_ok_iff.mp done
  refine ⟨existing, document, loaded, made, ?_⟩
  dsimp only at done
  split at done
  · rename_i path given
    obtain ⟨saved, -⟩ := perform_writing_eq_ok_iff.mp done
    rw [given]
    exact Metadata.save_eq_ok_iff.mp saved
  · rename_i given
    cases done
    rw [given]

private theorem failsUnchanged_init : FailsUnchanged init :=
  .behind fun _ => failsUnchanged_writing _ _

private theorem failsUnchanged_validate (path : String) : FailsUnchanged (validate path) :=
  .behind fun _ => failsUnchanged_pure _

private theorem failsUnchanged_generate (tools : String → Tool) (config : Config)
    (arguments : GenerateArguments) : FailsUnchanged (generate tools config arguments) := by
  apply FailsUnchanged.behind
  intro existing
  apply FailsUnchanged.behind
  intro document
  dsimp only
  split
  · exact failsUnchanged_writing _ _
  · exact failsUnchanged_pure _

/-- Whatever a command line asks for, nothing is written by the time something can fail. -/
theorem failsUnchanged_execute (tools : String → Tool) (env : Environment)
    (invocation : Invocation) : FailsUnchanged (execute tools env invocation) := by
  apply FailsUnchanged.behind
  intro config
  cases invocation.command with
  | generate arguments =>
    apply FailsUnchanged.withExitCode
    exact .behind fun _ => failsUnchanged_generate tools _ arguments
  | init => exact failsUnchanged_init
  | validate path => exact (failsUnchanged_validate path).withExitCode

/-! ## Runs -/

/-- What a run that succeeds may have made of the files, by its command. -/
def Promised (tools : String → Tool) (config : Config) (fs new : FileSystem) : Command → Prop
  | .validate _ => new = fs
  | .init =>
    fs.contains "bpmetadata.yaml" = false ∧
      ∃ place, fs.root.heldAt? place = none ∧
        fs.Written new "bpmetadata.yaml" place Config.exampleText.toUTF8
  | .generate arguments =>
    match arguments.output with
    | none => new = fs
    | some path =>
      -- The earlier document is read from the files as they were, also where it is replaced.
      let config := config.withArguments arguments
      ∃ existing document place, loadExisting fs arguments = .ok existing ∧
        Metadata.generate config fs (stateSource? tools fs config arguments) arguments.path
          (arguments.blueprintRoot.getD arguments.path) existing = .ok document ∧
        fs.Written new path place
          (document.render (formatFor config arguments) config.output.pretty).toUTF8

theorem execute_eq_ok {invocation : Invocation}
    (done : perform (execute tools env invocation) fs = (.ok output, new)) :
    ∃ config, loadConfig env fs invocation.config = .ok config ∧
      Promised tools config fs new invocation.command := by
  obtain ⟨config, loaded, done⟩ := perform_reading_bind_eq_ok_iff.mp done
  refine ⟨config, loaded, ?_⟩
  -- Only a start and a document with an output file write, and each of them last.
  dsimp only at done
  cases command : invocation.command with
  | generate arguments =>
    rw [command] at done
    have done := perform_withExitCode_eq_ok_iff.mp done
    obtain ⟨-, -, done⟩ := perform_reading_bind_eq_ok_iff.mp done
    obtain ⟨existing, document, loaded, made, written⟩ := generate_eq_ok done
    cases given : arguments.output with
    | none =>
      simp only [given] at written
      simp only [Promised, given, written]
    | some path =>
      simp only [given] at written
      obtain ⟨place, written⟩ := FileSystem.written_of_write written
      simp only [Promised, given]
      exact ⟨existing, document, place, loaded, made, written⟩
  | init =>
    rw [command] at done
    obtain ⟨missing, written⟩ := init_eq_ok done
    obtain ⟨place, written⟩ := FileSystem.written_of_write written
    exact ⟨missing, place, written.fresh missing, written⟩
  | validate path =>
    rw [command] at done
    exact validate_eq_ok (perform_withExitCode_eq_ok_iff.mp done)

private theorem loadConfig_ne_error_zero {given : Option String} :
    loadConfig env fs given ≠ .error 0 := by
  unfold loadConfig
  intro failed
  split at failed
  · cases failed
  split at failed
  · obtain ⟨error, -, zero⟩ := mapError_eq_error_iff.mp failed
    exact error.exitCode_ne_zero zero
  · cases failed

/-- A command that fails has an exit code that says so. -/
theorem execute_ne_error_zero {invocation : Invocation} :
    perform (execute tools env invocation) fs ≠ (.error 0, new) := by
  intro failed
  -- The configuration is read before the command is looked at.
  rcases perform_reading_bind_eq_error_iff.mp failed with ⟨unread, -⟩ | ⟨config, -, failed⟩
  · exact loadConfig_ne_error_zero unread
  dsimp only at failed
  cases command : invocation.command with
  | generate arguments =>
    rw [command] at failed
    obtain ⟨error, -, zero⟩ := perform_withExitCode_eq_error_iff.mp failed
    exact error.exitCode_ne_zero zero
  | init =>
    rw [command] at failed
    rcases perform_reading_bind_eq_error_iff.mp failed with ⟨taken, -⟩ | ⟨-, -, failed⟩
    · split at taken <;> cases taken
    · rw [perform_writing_eq] at failed
      split at failed
      · cases failed
      · rename_i unwritten
        cases failed
        obtain ⟨_, -, zero⟩ := mapError_eq_error_iff.mp unwritten
        cases zero
  | validate path =>
    rw [command] at failed
    obtain ⟨error, -, zero⟩ := perform_withExitCode_eq_error_iff.mp failed
    exact error.exitCode_ne_zero zero

/-- A run changes no file but the one that its command promises to write: a run that fails leaves
all files as they were, and so does one without an invocation. -/
theorem run_changes_only_what_is_promised (tools : String → Tool) (env : Environment)
    (fs : FileSystem) (arguments : List String) :
    let outcome := run tools env fs arguments
    (outcome.exitCode ≠ 0 → outcome.files = fs) ∧
      (∀ fault, CommandLine.parse env arguments = .error fault → outcome.files = fs) ∧
      ∀ invocation, CommandLine.parse env arguments = .ok invocation → outcome.exitCode = 0 →
        ∃ config, loadConfig env fs invocation.config = .ok config ∧
          Promised tools config fs outcome.files invocation.command := by
  intro outcome
  cases parsed : CommandLine.parse env arguments with
  | error fault =>
    have same : outcome.files = fs := by simp only [outcome, run, parsed]
    exact ⟨fun _ => same, fun _ _ => same, nofun⟩
  -- A failed command leaves its exit code and, having written nothing, the files as they were; a
  -- successful one leaves zero and what it promises.
  | ok invocation =>
    obtain ⟨result, files, done⟩ : ∃ result files,
        perform (execute tools env invocation) fs = (result, files) := ⟨_, _, rfl⟩
    cases result with
    | error exitCode =>
      have ended : outcome = { exitCode, output := "", files } := by
        simp only [outcome, run, parsed, done]
      have same : files = fs := failsUnchanged_execute tools env invocation fs exitCode files done
      refine ⟨fun _ => by rw [ended, same], nofun, fun _ _ succeeded => ?_⟩
      rw [ended] at succeeded
      obtain rfl : exitCode = 0 := succeeded
      exact absurd done execute_ne_error_zero
    | ok output =>
      have ended : outcome = { exitCode := 0, output, files } := by
        simp only [outcome, run, parsed, done]
      refine ⟨fun failed => absurd (by rw [ended]) failed, nofun, fun _ same _ => ?_⟩
      cases same
      rw [ended]
      exact execute_eq_ok done

/-- A blueprint that declares nothing, with a document that has a title. -/
def titled : FileSystem where
  root := .directory [("bp", .directory [("main.tf", .file "".toUTF8), ("metadata.yaml",
    .file "metadata:\n  name: bp\nspec:\n  info:\n    title: Old\n".toUTF8)])]
  workingDirectory := []

/-- A run on it that is asked for the document of a directory, in place of the one that is there. -/
def replacing (path : String) : Outcome :=
  run (fun _ => .missing) .empty titled ["generate", path, "-o", "bp/metadata.yaml"]

/-- The document of the blueprint replaces the earlier one, of which it keeps the title; a directory
that is missing has no document, and the earlier one stays. -/
theorem run_changes_only_what_is_promised_in_place :
    (replacing "bp").exitCode = 0 ∧
    (∃ config, loadConfig .empty titled none = .ok config ∧
      Promised (fun _ => .missing) config titled (replacing "bp").files
        (.generate { path := "bp", output := some "bp/metadata.yaml" })) ∧
    (replacing "gone").exitCode = 15 ∧ (replacing "gone").files = titled := by
  have succeeded : (replacing "bp").exitCode = 0 := by decide +kernel
  have failed : (replacing "gone").exitCode = 15 := by decide +kernel
  have parsed : CommandLine.parse .empty ["generate", "bp", "-o", "bp/metadata.yaml"] =
      .ok ⟨none, 0, false, .generate { path := "bp", output := some "bp/metadata.yaml" }⟩ :=
    eq_ok_of_toOption (by decide +kernel)
  obtain ⟨-, -, promised⟩ := run_changes_only_what_is_promised (fun _ => .missing) .empty titled
    ["generate", "bp", "-o", "bp/metadata.yaml"]
  obtain ⟨unchanged, -, -⟩ := run_changes_only_what_is_promised (fun _ => .missing) .empty titled
    ["generate", "gone", "-o", "bp/metadata.yaml"]
  exact ⟨succeeded, promised _ parsed succeeded, failed, unchanged (failed ▸ by decide)⟩

end Program
end Blueprint
