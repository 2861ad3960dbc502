import Blueprint.Extract.Versions
import Blueprint.Proofs.Results
import Mathlib.Data.List.TakeWhile

/-!
# The version at the end of a module name

A module name states a version if it ends in `/v` and a version. The text is looked for from the
end, up to the last slash or blank; since no version has one of these, that finds every version that
stands there (`ofModuleName?_eq_some_iff`).
-/

namespace Blueprint

namespace Version

/-- The characters that versions are written with. -/
def isVersionChar (c : Char) : Bool :=
  isIdentifierChar c || c == '.' || c == '+'

/-- A reader went over characters of a version and left the rest. -/
def Consumes (text rest : List Char) : Prop :=
  ∃ front, text = front ++ rest ∧ ∀ c ∈ front, isVersionChar c = true

private theorem Consumes.refl (text : List Char) : Consumes text text :=
  ⟨[], rfl, by simp⟩

private theorem Consumes.cons {c : Char} {text rest : List Char} (allowed : isVersionChar c = true)
    (consumes : Consumes text rest) : Consumes (c :: text) rest := by
  obtain ⟨front, rfl, all⟩ := consumes
  exact ⟨c :: front, rfl, List.forall_mem_cons.mpr ⟨allowed, all⟩⟩

private theorem Consumes.trans {text between rest : List Char} (first : Consumes text between)
    (second : Consumes between rest) : Consumes text rest := by
  obtain ⟨front, rfl, allFront⟩ := first
  obtain ⟨back, rfl, allBack⟩ := second
  refine ⟨front ++ back, by simp, fun c member => ?_⟩
  rcases List.mem_append.mp member with inFront | inBack
  · exact allFront c inFront
  · exact allBack c inBack

private theorem isVersionChar_of_isDigit {c : Char} (digit : c.isDigit = true) :
    isVersionChar c = true := by
  simp [isVersionChar, isIdentifierChar, Char.isAlphanum, digit]

private theorem consumes_readDigits {part : VersionPart} {started : Bool} {value n : Nat}
    {text rest : List Char} (read : readDigits part started value text = .ok (n, rest)) :
    Consumes text rest := by
  fun_induction readDigits part started value text with
  | case1 => cases read
  | case2 value =>
    cases read
    exact .refl []
  | case3 => cases read
  | case4 started value c text digit _ next small ih =>
    exact (ih read).cons (isVersionChar_of_isDigit digit)
  | case5 => cases read
  | case6 value c text notDigit =>
    cases read
    exact .refl _
  | case7 => cases read

private theorem consumes_readPoint {part : VersionPart} {text rest : List Char}
    (read : readPoint part text = .ok rest) : Consumes text rest := by
  cases text with
  | nil => cases read
  | cons c text =>
    by_cases point : c = '.'
    · obtain rfl : text = rest := by simpa [readPoint, point] using read
      exact (Consumes.refl text).cons (by simp [isVersionChar, point])
    · simp [readPoint, point] at read

private theorem consumes_readSegments {part : VersionPart} {text rest : List Char}
    {segments : List String}
    (read : readSegments part text = .ok (segments, rest)) : Consumes text rest := by
  simp only [readSegments, bind_eq_ok_iff, pure_eq_ok_iff] at read
  obtain ⟨_, -, same⟩ := read
  obtain ⟨-, rfl⟩ := Prod.mk.inj same
  refine ⟨_, List.takeWhile_append_dropWhile.symm, fun c member => ?_⟩
  have inPart := List.mem_takeWhile_imp member
  simp only [isVersionChar, Bool.or_eq_true] at inPart ⊢
  exact .inl inPart

private theorem consumes_readMarked {mark : Char} {part before last : VersionPart}
    {text rest : List Char}
    {segments : List String} (allowed : isVersionChar mark = true)
    (read : readMarked mark part before text = .ok (segments, last, rest)) :
    Consumes text rest := by
  cases text with
  | nil =>
    cases read
    exact .refl []
  | cons c text =>
    by_cases marked : c = mark
    · simp only [readMarked, marked, if_true, bind_eq_ok_iff, pure_eq_ok_iff] at read
      obtain ⟨⟨found, behind⟩, readBehind, same⟩ := read
      cases same
      exact (consumes_readSegments readBehind).cons (marked ▸ allowed)
    · simp only [readMarked, marked, if_false] at read
      cases read
      exact .refl _

/-- A version is written with characters of versions only. -/
private theorem isVersionChar_of_parse {text : List Char} {version : Version}
    (parsed : parse text = .ok version) : text ≠ [] ∧ ∀ c ∈ text, isVersionChar c = true := by
  have nonempty : text ≠ [] := by
    rintro rfl
    cases parsed
  have notEmpty : text.isEmpty = false := List.isEmpty_eq_false_iff.mpr nonempty
  simp only [parse, notEmpty, Bool.false_eq_true, if_false, bind_eq_ok_iff] at parsed
  obtain ⟨⟨_, afterMajor⟩, major, afterPoint, point, ⟨_, afterMinor⟩, minor, afterSecond, second,
    ⟨_, afterPatch⟩, patch, ⟨_, _, afterPre⟩, pre, ⟨_, _, rest⟩, build, ends⟩ := parsed
  -- Each reader goes on where the one before it stopped, and the last one stops at the end.
  have consumes : Consumes text rest :=
    (consumes_readDigits major).trans <| (consumes_readPoint point).trans <|
      (consumes_readDigits minor).trans <| (consumes_readPoint second).trans <|
      (consumes_readDigits patch).trans <| (consumes_readMarked (by decide) pre).trans <|
      consumes_readMarked (by decide) build
  cases rest with
  | cons c rest => cases ends
  | nil =>
    obtain ⟨front, rfl, all⟩ := consumes
    exact ⟨nonempty, by simpa using all⟩

private theorem toNat_of_isAlphanum {c : Char} (alphanum : c.isAlphanum = true) :
    48 ≤ c.toNat ∧ c.toNat ≤ 122 := by
  -- A class of characters goes from one character to another.
  have between {low high : Char} (bounds : low.val ≤ c.val ∧ c.val ≤ high.val) :
      low.toNat ≤ c.toNat ∧ c.toNat ≤ high.toNat :=
    bounds.imp UInt32.le_iff_toNat_le.mp UInt32.le_iff_toNat_le.mp
  rcases Bool.or_eq_true_iff.mp alphanum with letter | digit
  · rcases Bool.or_eq_true_iff.mp letter with upper | lower
    · have bounds : 65 ≤ c.toNat ∧ c.toNat ≤ 90 := between (of_decide_eq_true upper)
      omega
    · have bounds : 97 ≤ c.toNat ∧ c.toNat ≤ 122 :=
        between ((Bool.and_eq_true_iff.mp lower).imp of_decide_eq_true of_decide_eq_true)
      omega
  · have bounds : 48 ≤ c.toNat ∧ c.toNat ≤ 57 :=
      between ((Bool.and_eq_true_iff.mp digit).imp of_decide_eq_true of_decide_eq_true)
    omega

/-- Versions are written between the plus sign and the last small letter, without slashes. -/
private theorem toNat_of_isVersionChar {c : Char} (allowed : isVersionChar c = true) :
    43 ≤ c.toNat ∧ c.toNat ≤ 122 ∧ c.toNat ≠ 47 := by
  simp only [isVersionChar, isIdentifierChar, Bool.or_eq_true, beq_iff_eq] at allowed
  obtain ((alphanum | rfl) | rfl) | rfl := allowed
  · have bounds := toNat_of_isAlphanum alphanum
    omega
  all_goals decide

end Version

namespace VersionInfo

/-- The characters of which the end of a module name that is looked at consists. -/
def isSuffixChar (c : Char) : Bool :=
  c != '/' && !Text.isBlank c

private theorem isSuffixChar_of_isVersionChar {c : Char}
    (allowed : Version.isVersionChar c = true) :
    isSuffixChar c = true := by
  obtain ⟨lower, upper, noSlash⟩ := Version.toNat_of_isVersionChar allowed
  have notSlash : c ≠ '/' := by
    rintro rfl
    exact noSlash rfl
  have notBlank : Text.isBlank c = false := by
    simp [Text.isBlank]
    omega
  simp [isSuffixChar, notSlash, notBlank]

/-- Every text ends in characters of a suffix, and before the longest such end stands another
one. -/
private theorem exists_front_last (name : List Char) :
    ∃ front last, name = front ++ last ∧ (∀ c ∈ last, isSuffixChar c = true) ∧
      ∀ c ∈ front.getLast?, isSuffixChar c = false := by
  refine ⟨(name.reverse.dropWhile isSuffixChar).reverse,
    (name.reverse.takeWhile isSuffixChar).reverse, ?_, ?_, ?_⟩
  · rw [← List.reverse_append, List.takeWhile_append_dropWhile, List.reverse_reverse]
  · intro c member
    exact List.mem_takeWhile_imp (List.mem_reverse.mp member)
  · intro c stop
    rw [List.getLast?_reverse] at stop
    have fails := List.head?_dropWhile_not isSuffixChar name.reverse
    simpa [Option.mem_def.mp stop] using fails

/-- What is looked at is the longest end of characters of a suffix. -/
private theorem versionSuffix?_append {front last version : List Char}
    (all : ∀ c ∈ last, isSuffixChar c = true)
    (stop : ∀ c ∈ front.getLast?, isSuffixChar c = false) :
    versionSuffix? (front ++ last) = some version ↔
      front.getLast? = some '/' ∧ last = 'v' :: version ∧ version ≠ [] := by
  -- What stands before the end stops the search, so exactly the end is taken off.
  have none : front.reverse.takeWhile isSuffixChar = [] := by
    rw [← List.head?_reverse] at stop
    cases reversed : front.reverse with
    | nil => rfl
    | cons c rest => simp [stop c (by simp [reversed])]
  have found : ((front ++ last).reverse.takeWhile isSuffixChar).reverse = last := by
    rw [List.reverse_append, List.takeWhile_append_of_pos (by simpa using all), none,
      List.append_nil, List.reverse_reverse]
  have before : (front ++ last).take ((front ++ last).length - last.length) = front := by
    rw [List.length_append, Nat.add_sub_cancel, List.take_left]
  unfold isSuffixChar at found
  simp only [versionSuffix?, found, before]
  split
  · next rest slash => split <;> grind
  · next other =>
    refine ⟨nofun, ?_⟩
    rintro ⟨slash, rfl, nonempty⟩
    exact (other version slash rfl).elim

theorem versionSuffix?_eq_some_iff {name version : List Char} :
    versionSuffix? name = some version ↔
      version ≠ [] ∧ (∀ c ∈ version, isSuffixChar c = true) ∧
        ∃ front, name = front ++ '/' :: 'v' :: version := by
  constructor
  · intro found
    obtain ⟨front, last, rfl, all, stop⟩ := exists_front_last name
    obtain ⟨slash, rfl, nonempty⟩ := (versionSuffix?_append all stop).mp found
    obtain ⟨front, rfl⟩ := List.getLast?_eq_some_iff.mp slash
    exact ⟨nonempty, (List.forall_mem_cons.mp all).2, front, by simp⟩
  · rintro ⟨nonempty, all, front, rfl⟩
    have split : front ++ '/' :: 'v' :: version = (front ++ ['/']) ++ 'v' :: version := by simp
    have slash : ∀ c ∈ (front ++ ['/']).getLast?, isSuffixChar c = false := by simp [isSuffixChar]
    rw [split, versionSuffix?_append (List.forall_mem_cons.mpr ⟨by decide, all⟩) slash]
    simp [nonempty]

/-- A module name states the version that stands behind `/v` at its end. -/
theorem ofModuleName?_eq_some_iff {name version : String} :
    ofModuleName? name = some version ↔
      (∃ front, name = front ++ "/v" ++ version) ∧
        ∃ read, Version.parse version.toList = .ok read := by
  have written (front : String) : name = front ++ "/v" ++ version ↔
      name.toList = front.toList ++ '/' :: 'v' :: version.toList := by
    rw [← String.toList_inj]
    simp
  simp only [ofModuleName?, Option.bind_eq_some_iff]
  constructor
  · rintro ⟨found, suffix, parsed⟩
    split at parsed
    · next read ok =>
      cases parsed
      obtain ⟨-, -, front, same⟩ := versionSuffix?_eq_some_iff.mp suffix
      exact ⟨⟨String.ofList front, (written _).mpr (by simpa using same)⟩, read, by simpa using ok⟩
    · cases parsed
  · rintro ⟨⟨front, same⟩, read, parsed⟩
    obtain ⟨nonempty, all⟩ := Version.isVersionChar_of_parse parsed
    have suffix : versionSuffix? name.toList = some version.toList :=
      versionSuffix?_eq_some_iff.mpr
        ⟨nonempty, fun c member => isSuffixChar_of_isVersionChar (all c member), front.toList,
          (written front).mp same⟩
    exact ⟨version.toList, suffix, by simp [parsed]⟩

end VersionInfo
end Blueprint
