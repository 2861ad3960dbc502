import Blueprint.Program
import Blueprint.Proofs.Results

/-!
# Actions on files

An action hands on the files where it fails too, so that it takes a reason for them to be as they
were then. A step that reads leaves them alone whatever it finds, and a step that writes leaves them
alone if it fails. An action that writes last, with nothing behind the write that can fail,
therefore changes files only if it succeeds (`FailsUnchanged`).
-/

namespace Blueprint.Program

variable {ε α β : Type} {take : FileSystem → Except ε α} {next : α → Action ε β}
  {change : FileSystem → Except ε FileSystem} {fs new : FileSystem}

/-! ## Step by step -/

@[simp] theorem perform_pure (value : α) (fs : FileSystem) :
    perform (pure value : Action ε α) fs = (.ok value, fs) :=
  rfl

@[simp] theorem perform_reading (take : FileSystem → Except ε α) (fs : FileSystem) :
    perform (reading take) fs = (take fs, fs) :=
  rfl

/-- What fails is not gone on with, and what it made of the files stays. -/
private theorem perform_bind (action : Action ε α) (next : α → Action ε β) (fs : FileSystem) :
    perform (action >>= next) fs =
      match perform action fs with
      | (.ok value, new) => perform (next value) new
      | (.error fault, new) => (.error fault, new) := by
  simp only [perform, ExceptT.run_bind, StateT.run_bind]
  obtain ⟨outcome, new⟩ := action.run.run fs
  cases outcome <;> rfl

private theorem perform_withExitCode (action : Action Error α) (fs : FileSystem) :
    perform (withExitCode action) fs =
      ((perform action fs).1.mapError Error.exitCode, (perform action fs).2) :=
  rfl

/-- Behind a step that reads, the files are the same. -/
theorem perform_reading_bind_eq_ok_iff {result : β} :
    perform (reading take >>= next) fs = (.ok result, new) ↔
      ∃ value, take fs = .ok value ∧ perform (next value) fs = (.ok result, new) := by
  rw [perform_bind, perform_reading]
  cases take fs <;> simp

theorem perform_reading_bind_eq_error_iff {fault : ε} :
    perform (reading take >>= next) fs = (.error fault, new) ↔
      (take fs = .error fault ∧ fs = new) ∨
        ∃ value, take fs = .ok value ∧ perform (next value) fs = (.error fault, new) := by
  rw [perform_bind, perform_reading]
  cases take fs <;> simp

/-- A write that nothing follows succeeds if it has other files to put. -/
theorem perform_writing_eq (value : α) :
    perform (do writing change; return value) fs =
      match change fs with
      | .ok new => (.ok value, new)
      | .error fault => (.error fault, fs) := by
  have written : perform (writing change) fs =
      match change fs with
      | .ok new => (.ok (), new)
      | .error fault => (.error fault, fs) := rfl
  rw [perform_bind, written]
  cases change fs <;> rfl

theorem perform_writing_eq_ok_iff {value result : α} :
    perform (do writing change; return value) fs = (.ok result, new) ↔
      change fs = .ok new ∧ value = result := by
  rw [perform_writing_eq]
  cases change fs <;> simp [and_comm]

theorem perform_withExitCode_eq_ok_iff {action : Action Error α} {result : α} :
    perform (withExitCode action) fs = (.ok result, new) ↔
      perform action fs = (.ok result, new) := by
  rw [perform_withExitCode, Prod.mk.injEq, mapError_eq_ok_iff, ← Prod.mk.injEq]

theorem perform_withExitCode_eq_error_iff {action : Action Error α} {exitCode : Nat} :
    perform (withExitCode action) fs = (.error exitCode, new) ↔
      ∃ error, perform action fs = (.error error, new) ∧ error.exitCode = exitCode := by
  rw [perform_withExitCode, Prod.mk.injEq, mapError_eq_error_iff]
  constructor
  · rintro ⟨⟨error, failed, same⟩, left⟩
    exact ⟨error, Prod.ext failed left, same⟩
  · rintro ⟨error, failed, same⟩
    rw [failed]
    exact ⟨⟨error, rfl, same⟩, rfl⟩

/-! ## Failures -/

/-- An action leaves the files alone if it fails. -/
def FailsUnchanged (action : Action ε α) : Prop :=
  ∀ fs fault new, perform action fs = (.error fault, new) → new = fs

theorem failsUnchanged_pure (value : α) : FailsUnchanged (pure value : Action ε α) := by
  intro fs fault new failed
  cases failed

theorem failsUnchanged_writing (change : FileSystem → Except ε FileSystem) (value : α) :
    FailsUnchanged (do writing change; return value) := by
  intro fs fault new failed
  rw [perform_writing_eq] at failed
  cases changed : change fs with
  | ok written =>
    rw [changed] at failed
    cases failed
  | error cause =>
    rw [changed] at failed
    cases failed
    rfl

theorem FailsUnchanged.behind (later : ∀ value, FailsUnchanged (next value)) :
    FailsUnchanged (reading take >>= next) := by
  intro fs fault new failed
  rcases perform_reading_bind_eq_error_iff.mp failed with ⟨-, same⟩ | ⟨value, -, failed⟩
  · exact same.symm
  · exact later value fs fault new failed

theorem FailsUnchanged.withExitCode {action : Action Error α} (unchanged : FailsUnchanged action) :
    FailsUnchanged (withExitCode action) := by
  intro fs exitCode new failed
  obtain ⟨error, failed, -⟩ := perform_withExitCode_eq_error_iff.mp failed
  exact unchanged fs error new failed

end Blueprint.Program
