import Blueprint.Generate
import Blueprint.Proofs.Expressions
import Blueprint.Proofs.Results

/-!
# Scans that tolerate errors

A scan goes through the same files whether it tolerates errors or fails fast; the two modes differ
in what they do with a file whose text is faulty. A tolerant scan sorts the files into those that
were read and those that were not (`Sifted`), and no mode goes past the first file at which it has
to stop (`StopsAt`). What a strict scan gives follows from what a tolerant one gives, and a document
that can be made without tolerance is the same with it.
-/

namespace Blueprint

/-- The same options with errors tolerated or not. -/
def ScanOptions.tolerating (options : ScanOptions) (tolerant : Bool) : ScanOptions :=
  { options with continueOnError := tolerant }

/-- The same configuration with errors tolerated in scans or not. -/
def Config.tolerating (config : Config) (tolerant : Bool) : Config :=
  { config with scan := config.scan.tolerating tolerant }

/-- A file that is not read has a faulty text, or is no text at all. Only the first of these may be
passed over. -/
private theorem SourceFile.error_of_ofBytes {path : String} {bytes : ByteArray} {error : Error}
    (refused : ofBytes path bytes = .error error) :
    (error = .syntaxError path ∧ error.isRecoverable = true) ∨
      (error = .access path .other ∧ error.isRecoverable = false) := by
  unfold ofBytes parse at refused
  split at refused
  · split at refused
    · cases refused
    · cases refused
      exact .inl ⟨rfl, rfl⟩
  · cases refused
    exact .inr ⟨rfl, rfl⟩

/-- A text that says something is read as a file that says it. -/
theorem SourceFile.ofBytes_of_read? {path text : String} {body : Hcl.Body}
    (read : Hcl.Body.read? text = some body) : ofBytes path text.toUTF8 = .ok ⟨path, body⟩ := by
  simp only [ofBytes, fromUTF8?_toUTF8, parse, read]

theorem SourceFile.ofBytes_of_unread {path text : String} (unread : Hcl.Body.read? text = none) :
    ofBytes path text.toUTF8 = .error (.syntaxError path) := by
  simp only [ofBytes, fromUTF8?_toUTF8, parse, unread]

private theorem SourceFile.path_of_ofBytes {path : String} {bytes : ByteArray} {file : SourceFile}
    (read : ofBytes path bytes = .ok file) : file.path = path := by
  unfold ofBytes parse at read
  split at read
  · split at read
    · cases read
      rfl
    · cases read
  · cases read

/-- Files are complete when none was passed over. -/
private theorem Sources.complete_eq_ok_iff {sources : Sources} {files : List SourceFile} :
    sources.complete = .ok files ↔ sources.errors = [] ∧ sources.files = files := by
  rcases sources with ⟨read, _ | ⟨error, _ | ⟨another, errors⟩⟩⟩ <;>
    simp [complete, Error.collect, Except.map]

namespace Scan

/-! ## The files that a scan goes through -/

/-- The source files that a scan of a directory with the given entries goes through, in order. -/
def visited (options : ScanOptions) (path : String) (entries : List (FileName × Tree)) :
    List (String × ByteArray) :=
  match options.maxDepth with
  | 0 => []
  | depth + 1 => filesIn options path depth entries

mutual
private theorem filesOf_tolerating (options : ScanOptions) (tolerant : Bool) (path name : String)
    (depth : Nat) : (tree : Tree) →
      filesOf (options.tolerating tolerant) path name depth tree =
        filesOf options path name depth tree
  | .file bytes => rfl
  | .directory entries => by
    cases depth with
    | zero => rfl
    | succ depth => exact filesIn_tolerating options tolerant path depth entries

private theorem filesIn_tolerating (options : ScanOptions) (tolerant : Bool) (directory : String)
    (depth : Nat) : (entries : List (FileName × Tree)) →
      filesIn (options.tolerating tolerant) directory depth entries =
        filesIn options directory depth entries
  | [] => rfl
  | (name, tree) :: rest => by
    have skipped : isSkipped (options.tolerating tolerant) name = isSkipped options name := rfl
    simp only [filesIn, skipped,
      filesOf_tolerating options tolerant (Path.join directory name.shown) name.shown depth tree,
      filesIn_tolerating options tolerant directory depth rest]
end

/-- Tolerance does not change which files a scan goes through. -/
private theorem visited_tolerating (options : ScanOptions) (tolerant : Bool) (path : String)
    (entries : List (FileName × Tree)) :
    visited (options.tolerating tolerant) path entries = visited options path entries := by
  unfold visited
  show (match options.maxDepth with | 0 => _ | depth + 1 => _) = _
  split
  · rfl
  · exact filesIn_tolerating options tolerant path _ entries

/-- A scan reads the files that it goes through. -/
theorem directory_of_visited {options : ScanOptions} {fs : FileSystem} {path : String}
    {files : List (String × ByteArray)}
    (seen : (fs.directory? path).map (visited options path) = some files) :
    directory options fs path = readAll options.continueOnError files := by
  obtain ⟨entries, found, rfl⟩ := Option.map_eq_some_iff.mp seen
  rw [directory, found]
  rfl

private theorem directory_of_entries {options : ScanOptions} {fs : FileSystem} {path : String}
    {entries : List (FileName × Tree)} (found : fs.directory? path = some entries) (tolerant : Bool) :
    directory (options.tolerating tolerant) fs path =
      readAll tolerant (visited options path entries) := by
  rw [directory, found, ← visited_tolerating options tolerant]
  rfl

private theorem directory_of_missing (options : ScanOptions) {fs : FileSystem} {path : String}
    (missing : fs.directory? path = none) :
    directory options fs path = .error (.directoryNotFound path) := by
  rw [directory, missing]

/-! ## What the two modes give -/

/-- Files sorted into those that were read and the errors of those that were not, both in the order
of the files. Every file is on one side. -/
inductive Sifted : List (String × ByteArray) → List SourceFile → List Error → Prop where
  | nil : Sifted [] [] []
  | read {path : String} {bytes : ByteArray} {body : Hcl.Body} {rest : List (String × ByteArray)}
      {files : List SourceFile} {errors : List Error}
      (accepted : SourceFile.ofBytes path bytes = .ok ⟨path, body⟩)
      (later : Sifted rest files errors) :
      Sifted ((path, bytes) :: rest) (⟨path, body⟩ :: files) errors
  | faulty {path : String} {bytes : ByteArray} {rest : List (String × ByteArray)}
      {files : List SourceFile} {errors : List Error}
      (refused : SourceFile.ofBytes path bytes = .error (.syntaxError path))
      (later : Sifted rest files errors) :
      Sifted ((path, bytes) :: rest) files (.syntaxError path :: errors)

/-- Every file is accounted for once, by a file that was read or by an error. -/
private theorem Sifted.paths_perm {scanned : List (String × ByteArray)} {files : List SourceFile}
    {errors : List Error} (sifted : Sifted scanned files errors) :
    (files.map (fun file => Error.syntaxError file.path) ++ errors).Perm
      (scanned.map fun file => .syntaxError file.1) := by
  induction sifted with
  | nil => exact .nil
  | read _ _ ih => exact ih.cons _
  | faulty _ _ ih => exact List.perm_middle.trans (ih.cons _)

/-- A tolerant scan gives what its files are sorted into. -/
theorem readAll_tolerant_eq_ok_iff {scanned : List (String × ByteArray)} {files : List SourceFile}
    {errors : List Error} :
    readAll true scanned = .ok ⟨files, errors⟩ ↔ Sifted scanned files errors := by
  constructor
  -- Along the files: each is read, or has the one error that a tolerant scan records.
  · intro done
    induction scanned generalizing files errors with
    | nil =>
      cases done
      exact .nil
    | cons head rest ih =>
      obtain ⟨path, bytes⟩ := head
      simp only [readAll] at done
      split at done
      case h_1 file accepted =>
        obtain ⟨later, ok, same⟩ := map_eq_ok_iff.mp done
        cases same
        obtain rfl := SourceFile.path_of_ofBytes accepted
        exact .read accepted (ih ok)
      case h_2 error refused =>
        split at done
        case isTrue tolerated =>
          obtain ⟨later, ok, same⟩ := map_eq_ok_iff.mp done
          cases same
          rcases SourceFile.error_of_ofBytes refused with ⟨rfl, -⟩ | ⟨rfl, fatal⟩
          · exact .faulty refused (ih ok)
          · simp [fatal] at tolerated
        case isFalse => cases done
  · intro sifted
    induction sifted with
    | nil => rfl
    | read accepted _ ih => simp [readAll, accepted, ih, Except.map]
    | faulty refused _ ih => simp [readAll, refused, ih, Except.map, Error.isRecoverable]

/-- Whether a scan stops at an error. -/
def stops (tolerant : Bool) (error : Error) : Bool :=
  !(tolerant && error.isRecoverable)

/-- A scan stops at a file that is not read; those before it are read or passed over. -/
structure StopsAt (tolerant : Bool) (before : List (String × ByteArray)) (file : String × ByteArray)
    (error : Error) : Prop where
  refused : SourceFile.ofBytes file.1 file.2 = .error error
  stopped : stops tolerant error = true
  passed : ∀ earlier ∈ before, ∀ fault, SourceFile.ofBytes earlier.1 earlier.2 = .error fault →
    stops tolerant fault = false

/-- A scan that does not stop at a file fails as it does on the files behind it. -/
private theorem readAll_cons_eq_error_iff {tolerant : Bool} {file : String × ByteArray}
    {rest : List (String × ByteArray)} {error : Error}
    (passed : ∀ fault, SourceFile.ofBytes file.1 file.2 = .error fault →
      stops tolerant fault = false) :
    readAll tolerant (file :: rest) = .error error ↔ readAll tolerant rest = .error error := by
  obtain ⟨path, bytes⟩ := file
  cases answer : SourceFile.ofBytes path bytes with
  | ok source => simp only [readAll, answer, map_eq_error_iff]
  | error fault =>
    have tolerated : (tolerant && fault.isRecoverable) = true := by
      simpa [stops] using passed fault answer
    simp only [readAll, answer, tolerated, if_true, map_eq_error_iff]

private theorem readAll_cons_of_stops {tolerant : Bool} {file : String × ByteArray} {error : Error}
    (rest : List (String × ByteArray))
    (refused : SourceFile.ofBytes file.1 file.2 = .error error)
    (stopped : stops tolerant error = true) : readAll tolerant (file :: rest) = .error error := by
  obtain ⟨path, bytes⟩ := file
  have fatal : (tolerant && error.isRecoverable) = false := by
    simpa only [stops, Bool.not_eq_true'] using stopped
  simp [readAll, refused, fatal]

/-- A scan fails with the error of the first file at which it stops. -/
private theorem readAll_eq_error_iff {tolerant : Bool} {scanned : List (String × ByteArray)}
    {error : Error} :
    readAll tolerant scanned = .error error ↔
      ∃ before file after, scanned = before ++ file :: after ∧
        StopsAt tolerant before file error := by
  constructor
  · intro failed
    induction scanned with
    | nil => cases failed
    | cons head rest ih =>
      -- Either the scan stops at this file, or it fails as it does on the rest, and this file is
      -- one of those before.
      by_cases here : ∃ fault, SourceFile.ofBytes head.1 head.2 = .error fault ∧
          stops tolerant fault = true
      · obtain ⟨fault, refused, stopped⟩ := here
        have now := readAll_cons_of_stops rest refused stopped
        obtain rfl : fault = error := by simpa [now] using failed
        exact ⟨[], head, rest, rfl, refused, stopped, by simp⟩
      · have passed : ∀ fault, SourceFile.ofBytes head.1 head.2 = .error fault →
            stops tolerant fault = false := fun fault refused =>
          Bool.eq_false_iff.mpr fun stopped => here ⟨fault, refused, stopped⟩
        obtain ⟨before, file, after, rfl, stopped⟩ :=
          ih ((readAll_cons_eq_error_iff passed).mp failed)
        refine ⟨head :: before, file, after, rfl, stopped.refused, stopped.stopped, ?_⟩
        exact List.forall_mem_cons.mpr ⟨passed, stopped.passed⟩
  · rintro ⟨before, file, after, rfl, stopped⟩
    -- The files before the stop are gone through one by one; those behind it play no part.
    have reached : ∀ earlier : List (String × ByteArray),
        (∀ one ∈ earlier, ∀ fault, SourceFile.ofBytes one.1 one.2 = .error fault →
          stops tolerant fault = false) →
        readAll tolerant (earlier ++ file :: after) = .error error := by
      intro earlier passed
      induction earlier with
      | nil => exact readAll_cons_of_stops after stopped.refused stopped.stopped
      | cons one rest ih =>
        obtain ⟨here, later⟩ := List.forall_mem_cons.mp passed
        exact (readAll_cons_eq_error_iff here).mpr (ih later)
    exact reached before stopped.passed

/-- A strict scan stops at the first error that a tolerant one records. -/
private theorem Sifted.readAll_strict {scanned : List (String × ByteArray)}
    {files : List SourceFile}
    {errors : List Error} (sifted : Sifted scanned files errors) :
    readAll false scanned =
      match errors with
      | [] => .ok ⟨files, []⟩
      | error :: _ => .error error := by
  induction sifted with
  | nil => rfl
  | @read path bytes body rest files errors accepted later ih =>
    cases errors with
    | nil => simp [readAll, accepted, ih, Except.map]
    | cons error errors => simp [readAll, accepted, ih, Except.map]
  | faulty refused later ih => simp [readAll, refused]

/-- A strict scan that meets a refused file fails with its error, or with that of an earlier one. -/
private theorem readAll_strict_of_refused {file : String × ByteArray} {error : Error}
    (before after : List (String × ByteArray))
    (refused : SourceFile.ofBytes file.1 file.2 = .error error) :
    ∃ first, readAll false (before ++ file :: after) = .error first ∧
      (first = error ∨
        ∃ earlier ∈ before, SourceFile.ofBytes earlier.1 earlier.2 = .error first) := by
  -- The error is that of the first file before that is refused, if there is one.
  induction before with
  | nil => exact ⟨error, readAll_cons_of_stops after refused rfl, .inl rfl⟩
  | cons head rest ih =>
    cases answer : SourceFile.ofBytes head.1 head.2 with
    | error fault =>
      exact ⟨fault, readAll_cons_of_stops _ answer rfl, .inr ⟨head, List.mem_cons_self, answer⟩⟩
    | ok source =>
      obtain ⟨first, failed, origin⟩ := ih
      have passed : ∀ fault, SourceFile.ofBytes head.1 head.2 = .error fault →
          stops false fault = false := by simp [answer]
      refine ⟨first, (readAll_cons_eq_error_iff passed).mpr failed, origin.imp_right ?_⟩
      rintro ⟨earlier, member, fault⟩
      exact ⟨earlier, List.mem_cons_of_mem head member, fault⟩

/-- A strict scan reads what a tolerant one reads without recording an error. -/
theorem readAll_strict_eq_ok_iff {scanned : List (String × ByteArray)} {sources : Sources} :
    readAll false scanned = .ok sources ↔
      readAll true scanned = .ok sources ∧ sources.errors = [] := by
  constructor
  · intro read
    cases answer : readAll true scanned with
    | ok sorted =>
      obtain ⟨files, errors⟩ := sorted
      have strict := (readAll_tolerant_eq_ok_iff.mp answer).readAll_strict
      cases errors with
      | nil =>
        obtain rfl : sources = ⟨files, []⟩ := by simpa [read] using strict
        exact ⟨rfl, rfl⟩
      | cons => simp [read] at strict
    | error error =>
      -- Whatever stops a tolerant scan stops a strict one, there or before.
      obtain ⟨before, file, after, rfl, stopped⟩ := readAll_eq_error_iff.mp answer
      obtain ⟨first, failed, -⟩ := readAll_strict_of_refused before after stopped.refused
      simp [read] at failed
  · rintro ⟨read, none⟩
    obtain ⟨files, errors⟩ := sources
    obtain rfl : errors = [] := none
    exact (readAll_tolerant_eq_ok_iff.mp read).readAll_strict

/-! ## Scans of directories -/

/-- How what a strict and what a tolerant scan of a directory give hang together. -/
structure ModesAgree (options : ScanOptions) (fs : FileSystem) (path : String) : Prop where
  /-- A strict scan succeeds exactly when a tolerant one does without recording an error. -/
  success (sources : Sources) :
    directory (options.tolerating false) fs path = .ok sources ↔
      directory (options.tolerating true) fs path = .ok sources ∧ sources.errors = []
  /-- A strict scan fails with the first error that a tolerant one records. -/
  recorded {files : List SourceFile} {error : Error} {errors : List Error}
    (tolerated : directory (options.tolerating true) fs path = .ok ⟨files, error :: errors⟩) :
    directory (options.tolerating false) fs path = .error error
  /-- A directory that is not there is missed by both. -/
  missing (missing : fs.directory? path = none) (tolerant : Bool) :
    directory (options.tolerating tolerant) fs path = .error (.directoryNotFound path)
  /-- Where a tolerant scan fails on a file, which then is no text, a strict one fails on the first
  file that cannot be read: that one, or one with a faulty text before it. -/
  unreadable {entries : List (FileName × Tree)} {error : Error}
    (found : fs.directory? path = some entries)
    (failed : directory (options.tolerating true) fs path = .error error) :
    ∃ before file after, visited options path entries = before ++ file :: after ∧
      SourceFile.ofBytes file.1 file.2 = .error error ∧ error = .access file.1 .other ∧
      ∃ first earlier stop later, visited options path entries = earlier ++ stop :: later ∧
        StopsAt false earlier stop first ∧
        directory (options.tolerating false) fs path = .error first ∧
        (first = error ∨ ∃ faulty ∈ before, first = .syntaxError faulty.1)
  /-- A tolerant scan that succeeds has every file on one side, in the order of the scan. -/
  sifted {entries : List (FileName × Tree)} {sources : Sources}
    (found : fs.directory? path = some entries)
    (read : directory (options.tolerating true) fs path = .ok sources) :
    Sifted (visited options path entries) sources.files sources.errors ∧
      (sources.files.map (fun file => Error.syntaxError file.path) ++ sources.errors).Perm
        ((visited options path entries).map fun file => .syntaxError file.1)

private theorem modesAgree (options : ScanOptions) (fs : FileSystem) (path : String) :
    ModesAgree options fs path := by
  cases found : fs.directory? path with
  | none =>
    have gone (tolerant : Bool) : directory (options.tolerating tolerant) fs path =
      .error (.directoryNotFound path) := directory_of_missing _ found
    constructor <;> simp [gone, found]
  | some entries =>
    constructor
    case success =>
      intro sources
      simp only [directory_of_entries found, readAll_strict_eq_ok_iff]
    case recorded =>
      intro files error errors tolerated
      rw [directory_of_entries found] at tolerated ⊢
      exact (readAll_tolerant_eq_ok_iff.mp tolerated).readAll_strict
    case missing => simp [found]
    case unreadable =>
      -- The file at which the tolerant scan stops is refused, so a strict scan stops there at the
      -- latest. What it stops at before is a file that the tolerant one passed over.
      intro entries' error found' failed
      obtain rfl : entries = entries' := by simpa [found] using found'
      rw [directory_of_entries found] at failed
      obtain ⟨before, file, after, split, stopped⟩ := readAll_eq_error_iff.mp failed
      have unreadable : error = .access file.1 .other := by
        rcases SourceFile.error_of_ofBytes stopped.refused with ⟨rfl, -⟩ | ⟨rfl, -⟩
        · exact absurd stopped.stopped (by simp [stops, Error.isRecoverable])
        · rfl
      obtain ⟨first, strict, origin⟩ := readAll_strict_of_refused before after stopped.refused
      obtain ⟨earlier, stop, later, split', first'⟩ := readAll_eq_error_iff.mp strict
      refine ⟨before, file, after, split, stopped.refused, unreadable, first, earlier, stop, later,
        split.trans split', first', ?_, origin.imp_right ?_⟩
      · rw [directory_of_entries found, split, strict]
      · rintro ⟨faulty, member, refused⟩
        refine ⟨faulty, member, ?_⟩
        rcases SourceFile.error_of_ofBytes refused with ⟨same, -⟩ | ⟨rfl, -⟩
        · exact same
        · exact absurd (stopped.passed faulty member _ refused)
            (by simp [stops, Error.isRecoverable])
    case sifted =>
      intro entries' sources found' read
      obtain rfl : entries = entries' := by simpa [found] using found'
      rw [directory_of_entries found] at read
      have sifted := readAll_tolerant_eq_ok_iff.mp read
      exact ⟨sifted, sifted.paths_perm⟩

/-- No mode reads all of a directory in which a file is refused. -/
private theorem not_complete_of_refused {options : ScanOptions} {fs : FileSystem} {path : String}
    {entries : List (FileName × Tree)} {file : String × ByteArray} {error : Error} (tolerant : Bool)
    (found : fs.directory? path = some entries) (member : file ∈ visited options path entries)
    (refused : SourceFile.ofBytes file.1 file.2 = .error error) (files : List SourceFile) :
    (directory (options.tolerating tolerant) fs path >>= Sources.complete) ≠ .ok files := by
  intro complete
  obtain ⟨sources, read, whole⟩ := bind_eq_ok_iff.mp complete
  obtain ⟨none, -⟩ := Sources.complete_eq_ok_iff.mp whole
  -- To be complete a scan must not have recorded an error, and then a strict scan succeeds too.
  have strict : directory (options.tolerating false) fs path = .ok sources := by
    cases tolerant with
    | false => exact read
    | true => exact ((modesAgree options fs path).success sources).mpr ⟨read, none⟩
  obtain ⟨before, after, split⟩ := List.append_of_mem member
  obtain ⟨first, failed, -⟩ := readAll_strict_of_refused before after refused
  rw [directory_of_entries found, split, failed] at strict
  cases strict

end Scan

/-! ## Documents -/

/-- Requirements that a strict scan of the setup finds are found by a tolerant one. -/
private theorem Requirements.ofSetup_tolerating {config : Config} {fs : FileSystem}
    {root name : String}
    {requirements : Requirements}
    (found : ofSetup (config.tolerating false) fs root name = .ok requirements) :
    ofSetup (config.tolerating true) fs root name = .ok requirements := by
  have place (tolerant : Bool) :
      (config.tolerating tolerant).requirements.setupPath = config.requirements.setupPath := rfl
  unfold ofSetup at found ⊢
  rw [place] at found ⊢
  cases setup : fs.directory? (Path.join root config.requirements.setupPath) with
  | none =>
    simp only [setup] at found ⊢
    exact found
  | some entries =>
    simp only [setup] at found ⊢
    obtain ⟨sources, read, made⟩ := bind_eq_ok_iff.mp found
    obtain ⟨tolerated, -⟩ := ((Scan.modesAgree config.scan fs _).success sources).mp read
    exact bind_eq_ok_iff.mpr ⟨sources, tolerated, made⟩

namespace Metadata

variable {config : Config} {fs : FileSystem} {states : Option StateSource} {path root : String}

private theorem describe_tolerating {new : Metadata}
    (made : describe (config.tolerating false) fs states path root = .ok new) :
    describe (config.tolerating true) fs states path root = .ok new := by
  simp only [describe, bind_eq_ok_iff] at made ⊢
  obtain ⟨sources, read, files, complete, interface, declared, outputs, typed, requirements, found,
    done⟩ := made
  obtain ⟨tolerated, -⟩ := ((Scan.modesAgree config.scan fs path).success sources).mp read
  exact ⟨sources, tolerated, files, complete, interface, declared, outputs, typed, requirements,
    Requirements.ofSetup_tolerating found, done⟩

private theorem generate_tolerating {existing : Option Metadata} {document : Metadata}
    (made : generate (config.tolerating false) fs states path root existing = .ok document) :
    generate (config.tolerating true) fs states path root existing = .ok document := by
  -- The merge with the existing document does not depend on the mode.
  obtain ⟨new, described, merged⟩ := map_eq_ok_iff.mp made
  exact map_eq_ok_iff.mpr ⟨new, describe_tolerating described, merged⟩

/-- A blueprint with a source file that is refused has no document. -/
private theorem generate_of_refused {existing : Option Metadata} {entries : List (FileName × Tree)}
    {file : String × ByteArray} {error : Error} (tolerant : Bool)
    (found : fs.directory? path = some entries)
    (member : file ∈ Scan.visited config.scan path entries)
    (refused : SourceFile.ofBytes file.1 file.2 = .error error) :
    ∃ failure, generate (config.tolerating tolerant) fs states path root existing =
      .error failure := by
  rw [exists_error_iff]
  rintro ⟨document, made⟩
  obtain ⟨new, described, -⟩ := map_eq_ok_iff.mp made
  simp only [describe, bind_eq_ok_iff] at described
  obtain ⟨sources, read, files, complete, -⟩ := described
  exact Scan.not_complete_of_refused tolerant found member refused files
    (bind_eq_ok_iff.mpr ⟨sources, read, complete⟩)

/-- Failing fast only turns success into failure, and tolerance loses no file: what the two modes of
a scan give hangs together, a document that is made by failing fast is made with tolerance too, and
with either mode there is none when a source file of the blueprint is refused. -/
theorem tolerance_loses_nothing :
    (∀ (options : ScanOptions) (fs : FileSystem) (path : String),
      Scan.ModesAgree options fs path) ∧
    ∀ (config : Config) (fs : FileSystem) (states : Option StateSource) (path root : String)
      (existing : Option Metadata),
      (∀ document,
        generate (config.tolerating false) fs states path root existing = .ok document →
          generate (config.tolerating true) fs states path root existing = .ok document) ∧
      ∀ entries, fs.directory? path = some entries →
        ∀ file ∈ Scan.visited config.scan path entries, ∀ error,
          SourceFile.ofBytes file.1 file.2 = .error error →
          ∀ tolerant, ∃ failure,
            generate (config.tolerating tolerant) fs states path root existing = .error failure :=
  ⟨Scan.modesAgree, fun _ _ _ _ _ _ =>
    ⟨fun _ made => generate_tolerating made, fun _ found _ member _ refused tolerant =>
      generate_of_refused tolerant found member refused⟩⟩

/-- A blueprint with the given files and nothing else. -/
def plainFiles (files : List (FileName × Tree)) : FileSystem where
  root := .directory [("bp", .directory files)]
  workingDirectory := []

/-- A file that says nothing. -/
def silent : FileName × Tree := ("a.tf", .file "".toUTF8)

/-- A file whose text is faulty. -/
def broken : FileName × Tree := ("b.tf", .file "x".toUTF8)

/-- A silent file alone makes a document in both modes; with a broken one behind it, which only the
tolerant mode gets past, there is a document in neither. -/
theorem tolerance_loses_nothing_broken :
    generate (Config.tolerating {} true) (plainFiles [silent]) none "bp" "bp" none =
      .ok { resource := { name := "bp" } } ∧
    Scan.directory (ScanOptions.tolerating {} false) (plainFiles [silent, broken]) "bp" =
      .error (.syntaxError "bp/b.tf") ∧
    ∃ failure, generate (Config.tolerating {} true) (plainFiles [silent, broken]) none "bp" "bp" none =
      .error failure := by
  have quiet : SourceFile.ofBytes "bp/a.tf" "".toUTF8 = .ok ⟨"bp/a.tf", []⟩ :=
    SourceFile.ofBytes_of_read? (by decide +kernel)
  have refused : SourceFile.ofBytes "bp/b.tf" "x".toUTF8 = .error (.syntaxError "bp/b.tf") :=
    SourceFile.ofBytes_of_unread (by decide +kernel)
  have strict : generate (Config.tolerating {} false) (plainFiles [silent]) none "bp" "bp" none =
      .ok { resource := { name := "bp" } } := eq_ok_of_toOption (by decide +kernel)
  have seen : ((plainFiles [silent, broken]).directory? "bp").map
      (Scan.visited (ScanOptions.tolerating {} true) "bp") =
        some [("bp/a.tf", "".toUTF8), ("bp/b.tf", "x".toUTF8)] := by
    decide +kernel
  obtain ⟨modes, documents⟩ := tolerance_loses_nothing
  have tolerant : Scan.directory (ScanOptions.tolerating {} true) (plainFiles [silent, broken]) "bp" =
      .ok ⟨[⟨"bp/a.tf", []⟩], [.syntaxError "bp/b.tf"]⟩ := by
    rw [Scan.directory_of_visited seen]
    apply Scan.readAll_tolerant_eq_ok_iff.mpr
    exact .read quiet (.faulty refused .nil)
  refine ⟨(documents {} _ none "bp" "bp" none).1 _ strict, (modes {} _ "bp").recorded tolerant, ?_⟩
  obtain ⟨entries, found, gone⟩ := Option.map_eq_some_iff.mp seen
  rw [Scan.visited_tolerating] at gone
  have member : ("bp/b.tf", "x".toUTF8) ∈ Scan.visited {} "bp" entries := by simp [gone]
  exact (documents {} _ none "bp" "bp" none).2 entries found _ member _ refused true

end Metadata
end Blueprint
