import Blueprint.Constraint
import Blueprint.Proofs.Text
import Blueprint.Proofs.Versions.Numerals
import Mathlib.Data.List.Forall2

/-!
# The grammar of version constraints

The clauses of a constraint are the pieces of its text between commas. A clause is an optional
comparison, blanks behind it, an optional `v` and a version, which may leave out its last numbers.
Putting in the numbers that were left out reads exactly those texts (`parse_padVersion_eq_ok_iff`),
so that a constraint is read exactly if all its clauses are of this form, and the first one that is
not is the one that is reported (`parse_grammar`).
-/

namespace Blueprint

/-! ## Versions that leave out numbers -/

open Text (decimal)

/-- What may be written for a version: the version itself, or its first one or two numbers when the
others are zero. -/
inductive VersionText : List Char → Version → Prop where
  | full {text : List Char} {version : Version} :
      Version.parse text = .ok version → VersionText text version
  | majorMinor {major minor : Nat} :
      major < 18446744073709551616 → minor < 18446744073709551616 →
      VersionText (decimal major ++ '.' :: decimal minor) ⟨major, minor, 0, [], []⟩
  | major {major : Nat} :
      major < 18446744073709551616 → VersionText (decimal major) ⟨major, 0, 0, [], []⟩

namespace VersionText

variable {text bare : List Char} {version : Version}

private theorem not_point_mem_decimal (n : Nat) : '.' ∉ decimal n := by
  intro member
  have digit := Json.isDigit_of_mem_decimal member
  revert digit
  decide

/-- A text is divided at its first point in one way. -/
private theorem append_point_inj {front front' back back' : List Char} (whole : '.' ∉ front)
    (whole' : '.' ∉ front') (same : front ++ '.' :: back = front' ++ '.' :: back') :
    front = front' ∧ back = back' := by
  rcases List.append_eq_append_iff.mp same with ⟨between, rfl, ends⟩ | ⟨between, rfl, ends⟩
  · cases between with
    | nil => simpa using ends
    | cons c between =>
      obtain ⟨rfl, -⟩ := List.cons.inj ends
      simp at whole'
  · cases between with
    | nil => simpa [eq_comm] using ends
    | cons c between =>
      obtain ⟨rfl, -⟩ := List.cons.inj ends
      simp at whole

/-- The text of a version begins with a digit. -/
private theorem starts (stated : VersionText text version) :
    ∃ c rest, text = c :: rest ∧ c.isDigit = true := by
  have number (n : Nat) (rest : List Char) :
      ∃ c more, decimal n ++ rest = c :: more ∧ c.isDigit = true := by
    obtain ⟨c, front, written⟩ := Json.exists_decimal n
    exact ⟨c, front ++ rest, by rw [written]; rfl,
      Json.isDigit_of_mem_decimal (written ▸ List.mem_cons_self)⟩
  cases stated with
  | full parsed =>
    obtain ⟨-, -, tail, rfl⟩ := Version.exists_tail_of_parse parsed
    exact number _ _
  | majorMinor => exact number _ _
  | major => simpa using number _ []

private theorem head?_ne_mark (stated : VersionText text version) : text.head? ≠ some 'v' := by
  intro marked
  obtain ⟨c, rest, rfl, digit⟩ := stated.starts
  obtain rfl : c = 'v' := by simpa using marked
  revert digit
  decide

end VersionText

namespace Constraint

variable {text bare : List Char} {version : Version}

/-- A text with zeros for up to two numbers, by the number of points in it. -/
def padded (bare : List Char) : List Char :=
  match bare.count '.' with
  | 0 => bare ++ ".0.0".toList
  | 1 => bare ++ ".0".toList
  | _ => bare

private theorem padVersion_marked (bare : List Char) : padVersion ('v' :: bare) = padded bare := rfl

private theorem padVersion_unmarked (unmarked : text.head? ≠ some 'v') :
    padVersion text = padded text := by
  unfold padVersion
  split
  · simp at unmarked
  · rfl

/-- Zeros make a version of what is written for a version. -/
private theorem parse_padded (stated : VersionText bare version) :
    Version.parse (padded bare) = .ok version := by
  have none (n : Nat) : (decimal n).count '.' = 0 :=
    List.count_eq_zero.mpr (VersionText.not_point_mem_decimal n)
  have zero : (0 : Nat) < 18446744073709551616 := by decide
  have written : decimal 0 = ['0'] := rfl
  cases stated with
  | full parsed =>
    obtain ⟨-, -, tail, rfl⟩ := Version.exists_tail_of_parse parsed
    simpa [padded, none] using parsed
  | @majorMinor major minor majorFits minorFits =>
    have parsed := Version.parse_numbers majorFits minorFits zero
    simpa [padded, none, written] using parsed
  | @major major fits =>
    have parsed := Version.parse_numbers fits zero zero
    simpa [padded, none, written] using parsed

/-- Zeros make a version of nothing else. -/
private theorem versionText_of_padded (parsed : Version.parse (padded bare) = .ok version) :
    VersionText bare version := by
  -- What stands for a version stands for the one that was read.
  have unique {other : Version} (stated : VersionText bare other) : VersionText bare version := by
    obtain rfl : version = other := Except.ok.inj (parsed.symm.trans (parse_padded stated))
    exact stated
  obtain ⟨majorFits, minorFits, tail, same⟩ := Version.exists_tail_of_parse parsed
  have majorWhole := VersionText.not_point_mem_decimal version.major
  have minorWhole := VersionText.not_point_mem_decimal version.minor
  unfold padded at same parsed
  generalize points : bare.count '.' = n at same parsed
  match n with
  | 0 =>
    obtain ⟨rfl, -⟩ :=
      VersionText.append_point_inj (List.count_eq_zero.mp points) majorWhole same
    exact unique (.major majorFits)
  | 1 =>
    have pointed : '.' ∈ bare := List.count_pos_iff.mp (by omega)
    obtain ⟨front, back, rfl, frontWhole⟩ := List.eq_append_cons_of_mem pointed
    have backWhole : '.' ∉ back := by
      rw [← List.count_eq_zero]
      simpa [List.count_eq_zero.mpr frontWhole] using points
    have regrouped : front ++ '.' :: (back ++ '.' :: ['0']) =
        decimal version.major ++ '.' :: (decimal version.minor ++ '.' :: tail) :=
      (List.append_assoc front ('.' :: back) _).symm.trans same
    obtain ⟨rfl, behind⟩ := VersionText.append_point_inj frontWhole majorWhole regrouped
    obtain ⟨rfl, -⟩ := VersionText.append_point_inj backWhole minorWhole behind
    exact unique (.majorMinor majorFits minorFits)
  | n + 2 => exact .full parsed

theorem parse_padVersion_eq_ok_iff :
    Version.parse (padVersion text) = .ok version ↔
      ∃ bare, (text = bare ∨ text = 'v' :: bare) ∧ VersionText bare version := by
  constructor
  · intro parsed
    by_cases marked : text.head? = some 'v'
    · obtain ⟨bare, rfl⟩ := List.head?_eq_some_iff.mp marked
      rw [padVersion_marked] at parsed
      exact ⟨bare, .inr rfl, versionText_of_padded parsed⟩
    · rw [padVersion_unmarked marked] at parsed
      exact ⟨text, .inl rfl, versionText_of_padded parsed⟩
  · rintro ⟨bare, rfl | rfl, stated⟩
    · rw [padVersion_unmarked stated.head?_ne_mark]
      exact parse_padded stated
    · rw [padVersion_marked]
      exact parse_padded stated

end Constraint

/-! ## Comparisons -/

namespace Comparison

variable {clause version version' : List Char} {comparison comparison' : Comparison}

/-- How a comparison is written. -/
def sign : Comparison → List Char
  | pessimistic => "~>".toList
  | notEqual => "!=".toList
  | greaterThanOrEqual => ">=".toList
  | lessThanOrEqual => "<=".toList
  | greaterThan => ">".toList
  | lessThan => "<".toList
  | exact => "=".toList

private theorem sign_injective : Function.Injective sign := by
  intro comparison comparison'
  cases comparison <;> cases comparison' <;> decide

private theorem sign_of_mem_spellings {spelling : String × Comparison}
    (member : spelling ∈ spellings) :
    spelling.1.toList = spelling.2.sign := by
  revert spelling
  decide

private theorem mem_spellings (comparison : Comparison) :
    (String.ofList comparison.sign, comparison) ∈ spellings := by
  cases comparison <;> decide

/-- Longer signs are tried first. -/
private theorem spellings_descending :
    spellings.Pairwise fun a b => b.2.sign.length ≤ a.2.sign.length := by
  decide

/-- The comparison that a clause begins with and what stands behind it and the blanks after it: the
longest sign that it begins with tells, and without a sign it is `=`. -/
inductive Begins (clause : List Char) : Comparison → List Char → Prop where
  | signed {comparison : Comparison} {blanks version : List Char} :
      clause = comparison.sign ++ (blanks ++ version) →
      (∀ other : Comparison, other.sign <+: clause → other.sign.length ≤ comparison.sign.length) →
      (∀ c ∈ blanks, Text.isBlank c = true) → (∀ c ∈ version.head?, Text.isBlank c = false) →
      Begins clause comparison version
  | unsigned : (∀ comparison : Comparison, ¬ comparison.sign <+: clause) → Begins clause exact clause

private theorem dropWhile_blanks {blanks : List Char} (all : ∀ c ∈ blanks, Text.isBlank c = true)
    (starts : ∀ c ∈ version.head?, Text.isBlank c = false) :
    (blanks ++ version).dropWhile Text.isBlank = version := by
  rw [List.dropWhile_append_of_pos all]
  cases version with
  | nil => rfl
  | cons c version => simp [starts c rfl]

private theorem Begins.unique (begins : Begins clause comparison version)
    (begins' : Begins clause comparison' version') :
    comparison = comparison' ∧ version = version' := by
  cases begins with
  | signed same longest all starts =>
    rename_i blanks
    have among : comparison.sign <+: clause := ⟨_, same.symm⟩
    cases begins' with
    | signed same' longest' all' starts' =>
      have among' : comparison'.sign <+: clause := ⟨_, same'.symm⟩
      have signs : comparison.sign = comparison'.sign :=
        (List.prefix_of_prefix_length_le among among' (longest' _ among)).eq_of_length
          (Nat.le_antisymm (longest' _ among) (longest _ among'))
      obtain rfl := sign_injective signs
      have behind := List.append_cancel_left (same.symm.trans same')
      -- Both texts are what is left of the same characters without blanks.
      refine ⟨rfl, ?_⟩
      rw [← dropWhile_blanks all starts, behind, dropWhile_blanks all' starts']
    | unsigned none => exact absurd among (none _)
  | unsigned none =>
    cases begins' with
    | signed same' => exact absurd ⟨_, same'.symm⟩ (none _)
    | unsigned => exact ⟨rfl, rfl⟩

private theorem not_prefix_of_stripStart? {start text : List Char}
    (kept : Text.stripStart? start text = none) : ¬ start <+: text := by
  rintro ⟨rest, rfl⟩
  rw [Text.stripStart?_append] at kept
  cases kept

/-- The first sign that is found is the longest one. -/
private theorem begins_split (ends : Text.NoBlankEnd clause) :
    Begins clause (split clause).1 (split clause).2 := by
  have absent {spelling : String × Comparison} (member : spelling ∈ spellings)
      (missing : (Text.stripStart? spelling.1.toList clause).map
        (fun rest => (spelling.2, Text.trim rest)) = none) : ¬ spelling.2.sign <+: clause := by
    rw [← sign_of_mem_spellings member]
    exact not_prefix_of_stripStart? (Option.map_eq_none_iff.mp missing)
  unfold split
  cases found : spellings.findSome? fun spelling =>
      (Text.stripStart? spelling.1.toList clause).map fun rest => (spelling.2, Text.trim rest) with
  | none =>
    exact .unsigned fun comparison => absent (mem_spellings comparison)
      (List.findSome?_eq_none_iff.mp found _ (mem_spellings comparison))
  | some result =>
    -- Signs before the one that was found do not fit, and those behind it are not longer.
    obtain ⟨earlier, spelling, later, table, strips, before⟩ := List.findSome?_eq_some_iff.mp found
    obtain ⟨rest, stripped, rfl⟩ := Option.map_eq_some_iff.mp strips
    have member : spelling ∈ spellings := by simp [table]
    have same := Text.eq_append_of_stripStart? stripped
    rw [sign_of_mem_spellings member] at same
    have trimmed : Text.trim rest = rest.dropWhile Text.isBlank :=
      (ends.suffix ⟨_, same.symm⟩).trim_eq
    have divided : clause =
        spelling.2.sign ++ (rest.takeWhile Text.isBlank ++ Text.trim rest) := by
      rw [trimmed, List.takeWhile_append_dropWhile, ← same]
    refine .signed divided ?_ ?_ ?_
    · intro other among
      have place := mem_spellings other
      rw [table] at place
      rcases List.mem_append.mp place with isEarlier | notEarlier
      · exact absurd among (absent (mem_spellings other) (before _ isEarlier))
      · rcases List.mem_cons.mp notEarlier with rfl | isLater
        · exact Nat.le_refl _
        · have descending := spellings_descending
          rw [table] at descending
          exact (List.pairwise_cons.mp (List.pairwise_append.mp descending).2.1).1 _ isLater
    · intro c member
      exact List.mem_takeWhile_imp member
    · intro c first
      have fails := List.head?_dropWhile_not Text.isBlank rest
      have head : (Text.trim rest).head? = some c := first
      rw [← trimmed, head] at fails
      simpa using fails

end Comparison

/-! ## Clauses -/

/-- The grammar of a clause. -/
inductive ClauseText : List Char → Clause → Prop where
  | intro {clause text bare : List Char} {comparison : Comparison} {version : Version} :
      Comparison.Begins clause comparison text → (text = bare ∨ text = 'v' :: bare) →
      VersionText bare version → ClauseText clause ⟨comparison, version⟩

namespace Constraint

private theorem parseVersion_eq_ok_iff {text : List Char} {version : Version} :
    parseVersion text = .ok version ↔ Version.parse (padVersion text) = .ok version := by
  rw [parseVersion]
  split <;> simp [*]

private theorem parseVersion_eq_error_iff {text : List Char} {error : ConstraintFault} :
    parseVersion text = .error error ↔
      ∃ fault, Version.parse (padVersion text) = .error fault ∧
        error = .version (String.ofList text) fault := by
  rw [parseVersion]
  split <;> simp [*, eq_comm]

variable {segment : List Char}

/-- A clause is read exactly if it is in the grammar. -/
private theorem parseClause_eq_ok_iff {clause : Clause} (ends : Text.NoBlankEnd segment) :
    parseClause segment = .ok clause ↔ ClauseText segment clause := by
  have begins := Comparison.begins_split ends
  simp only [parseClause, bind_eq_ok_iff, pure_eq_ok_iff, parseVersion_eq_ok_iff,
    parse_padVersion_eq_ok_iff]
  constructor
  · rintro ⟨version, ⟨bare, marked, stated⟩, rfl⟩
    exact .intro begins marked stated
  · rintro ⟨begins', marked, stated⟩
    obtain ⟨rfl, rfl⟩ := begins.unique begins'
    exact ⟨_, ⟨_, marked, stated⟩, rfl⟩

/-- A clause is refused for what stands behind its comparison. -/
private theorem parseClause_eq_error_iff {error : ConstraintFault}
    (ends : Text.NoBlankEnd segment) :
    parseClause segment = .error error ↔
      ∃ comparison text fault, Comparison.Begins segment comparison text ∧
        Version.parse (padVersion text) = .error fault ∧
        error = .version (String.ofList text) fault := by
  have begins := Comparison.begins_split ends
  simp only [parseClause, bind_eq_error_iff, pure_ne_error, and_false, exists_false, or_false,
    parseVersion_eq_error_iff]
  constructor
  · rintro ⟨fault, refused, rfl⟩
    exact ⟨_, _, fault, begins, refused, rfl⟩
  · rintro ⟨comparison, text, fault, begins', refused, rfl⟩
    obtain ⟨rfl, rfl⟩ := begins.unique begins'
    exact ⟨fault, refused, rfl⟩

/-- A clause is refused with a fault of its version exactly if it is not in the grammar, and the
version has that fault. -/
private theorem refused_iff {version : String} {fault : VersionFault}
    (ends : Text.NoBlankEnd segment) :
    parseClause segment = .error (.version version fault) ↔
      (∀ clause, ¬ ClauseText segment clause) ∧
        ∃ comparison, Comparison.Begins segment comparison version.toList ∧
          Version.parse (padVersion version.toList) = .error fault := by
  constructor
  · intro refused
    refine ⟨fun clause inGrammar => ?_, ?_⟩
    · rw [(parseClause_eq_ok_iff ends).mpr inGrammar] at refused
      cases refused
    · obtain ⟨comparison, text, _, begins, fails, same⟩ := (parseClause_eq_error_iff ends).mp refused
      cases same
      exact ⟨comparison, by simpa using begins, by simpa using fails⟩
  · rintro ⟨-, comparison, begins, fails⟩
    exact (parseClause_eq_error_iff ends).mpr
      ⟨comparison, version.toList, fault, begins, fails, by simp⟩

/-! ## Constraints -/

private theorem noBlankEnd_of_mem_segments {text : String} (member : segment ∈ segments text) :
    Text.NoBlankEnd segment := by
  obtain ⟨among, -⟩ := List.mem_filter.mp member
  obtain ⟨piece, -, rfl⟩ := List.mem_map.mp among
  exact Text.noBlankEnd_trim piece

private theorem segments_eq (text : String) :
    segments text = ((text.toList.splitOn ',').map fun piece =>
      (piece.dropWhile Text.isBlank).rdropWhile Text.isBlank).filter (· ≠ []) := by
  have trims : Text.trim = fun piece => (piece.dropWhile Text.isBlank).rdropWhile Text.isBlank :=
    funext Text.trim_eq
  rw [segments, Text.splitAtChar_eq_splitOn, trims]
  congr 1
  funext piece
  cases piece <;> rfl

/-- Clauses are read one by one, and there has to be one. -/
private theorem parse_eq (text : String) :
    parse text = if segments text = [] then .error .empty
      else ((segments text).mapM parseClause).map fun clauses => ⟨text, clauses⟩ := by
  cases pieces : segments text with
  | nil =>
    rw [parse, pieces]
    rfl
  | cons piece rest =>
    rw [if_neg (List.cons_ne_nil piece rest), ← pieces]
    cases traversed : (segments text).mapM parseClause with
    | error error =>
      rw [parse, traversed]
      rfl
    | ok clauses =>
      have nonempty : clauses.isEmpty = false := by
        rw [mapM_eq_ok_iff, pieces] at traversed
        cases traversed
        rfl
      simp only [parse, traversed, ok_bind, nonempty, Bool.false_eq_true, if_false]
      rfl

/-- Clauses are read exactly if they are in the grammar. -/
private theorem mapM_parseClause_eq_ok_iff {text : String} {clauses : List Clause} :
    (segments text).mapM parseClause = .ok clauses ↔
      List.Forall₂ ClauseText (segments text) clauses := by
  have trimmed : ∀ segment ∈ segments text, Text.NoBlankEnd segment :=
    fun _ => noBlankEnd_of_mem_segments
  have both (R : List Char → Clause → Prop) : List.Forall₂ R (segments text) clauses ↔
      List.Forall₂ (fun segment clause => Text.NoBlankEnd segment ∧ R segment clause)
        (segments text) clauses := by
    rw [List.forall₂_and_left]
    exact (and_iff_right trimmed).symm
  rw [mapM_eq_ok_iff, both, both ClauseText]
  simp only [and_congr_right_iff.mpr parseClause_eq_ok_iff]

private theorem exists_parseClause_iff {text : String} (member : segment ∈ segments text) :
    (∃ clause, parseClause segment = .ok clause) ↔ ∃ clause, ClauseText segment clause :=
  exists_congr fun _ => parseClause_eq_ok_iff (noBlankEnd_of_mem_segments member)

section

variable {text : String} {constraint : Constraint}

/-- A text is a constraint if it has clauses and all of them are in the grammar. -/
private theorem exists_parse_iff :
    (∃ constraint, parse text = .ok constraint) ↔
      segments text ≠ [] ∧ ∀ segment ∈ segments text, ∃ clause, ClauseText segment clause := by
  rw [parse_eq]
  split
  · next empty => simp [empty]
  · next nonempty =>
    rw [← forall₂_congr fun _ => exists_parseClause_iff, ← exists_mapM_eq_ok_iff,
      and_iff_right nonempty]
    simp [map_eq_ok_iff]

private theorem parse_eq_ok_iff :
    parse text = .ok constraint ↔ constraint.raw = text ∧ segments text ≠ [] ∧
      List.Forall₂ ClauseText (segments text) constraint.clauses := by
  obtain ⟨raw, clauses⟩ := constraint
  rw [parse_eq]
  split
  · next empty => simp [empty]
  · next nonempty =>
    simp only [map_eq_ok_iff, mapM_parseClause_eq_ok_iff, Constraint.mk.injEq]
    constructor
    · rintro ⟨_, stated, rfl, rfl⟩
      exact ⟨rfl, nonempty, stated⟩
    · rintro ⟨rfl, -, stated⟩
      exact ⟨clauses, stated, rfl, rfl⟩

private theorem parse_eq_empty_iff : parse text = .error .empty ↔ segments text = [] := by
  rw [parse_eq]
  split
  · next empty => simp [empty]
  · next nonempty =>
    -- Clauses are refused for their versions only.
    refine iff_of_false (fun refused => ?_) nonempty
    rw [map_eq_error_iff, mapM_eq_error_iff] at refused
    obtain ⟨front, segment, back, table, -, fails⟩ := refused
    have member : segment ∈ segments text := by simp [table]
    obtain ⟨_, _, _, -, -, same⟩ :=
      (parseClause_eq_error_iff (noBlankEnd_of_mem_segments member)).mp fails
    cases same

/-- The version that is refused is that of the first clause that is not in the grammar. -/
private theorem parse_eq_version_iff {version : String} {fault : VersionFault} :
    parse text = .error (.version version fault) ↔
      ∃ front segment back, segments text = front ++ segment :: back ∧
        (∀ earlier ∈ front, ∃ clause, ClauseText earlier clause) ∧
        (∀ clause, ¬ ClauseText segment clause) ∧
        ∃ comparison, Comparison.Begins segment comparison version.toList ∧
          Version.parse (padVersion version.toList) = .error fault := by
  rw [parse_eq]
  split
  · next empty => simp [empty]
  · next nonempty =>
    rw [map_eq_error_iff, mapM_eq_error_iff]
    -- The traversal stops at the first clause that fails, the first one outside of the grammar.
    refine exists_congr fun front => exists_congr fun segment => exists_congr fun back =>
      and_congr_right fun table => ?_
    have member : segment ∈ segments text := by simp [table]
    have frontRead : ∀ earlier ∈ front, (∃ clause, parseClause earlier = .ok clause) ↔
        ∃ clause, ClauseText earlier clause := by
      intro earlier among
      have member : earlier ∈ segments text := by simp [table, among]
      exact exists_parseClause_iff member
    rw [forall₂_congr frontRead]
    exact and_congr_right fun _ => refused_iff (noBlankEnd_of_mem_segments member)

end

/-- A text is a constraint exactly if some clause is left once blank ones are dropped and all
clauses are in the grammar; the constraint then says what they say, in order. Otherwise the text is
refused as empty, or for the version of the first clause that is not in the grammar. -/
theorem parse_grammar (text : String) :
    segments text = ((text.toList.splitOn ',').map fun piece =>
      (piece.dropWhile Text.isBlank).rdropWhile Text.isBlank).filter (· ≠ []) ∧
    ((∃ constraint, parse text = .ok constraint) ↔
      segments text ≠ [] ∧ ∀ segment ∈ segments text, ∃ clause, ClauseText segment clause) ∧
    (∀ constraint, parse text = .ok constraint ↔ constraint.raw = text ∧
      segments text ≠ [] ∧ List.Forall₂ ClauseText (segments text) constraint.clauses) ∧
    (parse text = .error .empty ↔ segments text = []) ∧
    ∀ version fault, parse text = .error (.version version fault) ↔
      ∃ front segment back, segments text = front ++ segment :: back ∧
        (∀ earlier ∈ front, ∃ clause, ClauseText earlier clause) ∧
        (∀ clause, ¬ ClauseText segment clause) ∧
        ∃ comparison, Comparison.Begins segment comparison version.toList ∧
          Version.parse (padVersion version.toList) = .error fault :=
  ⟨segments_eq text, exists_parse_iff, fun _ => parse_eq_ok_iff, parse_eq_empty_iff,
    fun _ _ => parse_eq_version_iff⟩

example : parse ">= 0.13, <v2" =
    .ok ⟨">= 0.13, <v2",
      [⟨.greaterThanOrEqual, ⟨0, 13, 0, [], []⟩⟩, ⟨.lessThan, ⟨2, 0, 0, [], []⟩⟩]⟩ := by
  decide +kernel

end Constraint

end Blueprint
