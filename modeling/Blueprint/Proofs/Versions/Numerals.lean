import Blueprint.Proofs.Json.Tokens
import Blueprint.Proofs.Results
import Blueprint.Version

/-!
# Numbers in versions

A number in a version is read exactly if it is written as its decimal digits and fits into 64 bits
(`readNumber_eq_ok_iff`). Versions begin with two numbers, each before a point
(`exists_tail_of_parse`).
-/

namespace Blueprint

namespace Text

private theorem decimal_injective : Function.Injective decimal := by
  intro n m same
  have value (k : Nat) : Nat.ofDigitChars 10 (decimal k) 0 = k := Nat.ofDigitChars_ten_toDigits
  rw [← value n, same, value m]

private theorem digitChar_of_isDigit {c : Char} (digit : c.isDigit = true) :
    c.toNat - '0'.toNat < 10 ∧ Nat.digitChar (c.toNat - '0'.toNat) = c := by
  have bounds := digit
  simp only [Char.isDigit, Bool.and_eq_true, decide_eq_true_eq, ge_iff_le,
    UInt32.le_iff_toNat_le] at bounds
  have low : 48 ≤ c.toNat := bounds.1
  have high : c.toNat ≤ 57 := bounds.2
  have zero : '0'.toNat = 48 := rfl
  have small : c.toNat - '0'.toNat < 10 := by omega
  refine ⟨small, Char.toNat_inj.mp ?_⟩
  rw [Nat.toNat_digitChar_of_lt_ten small]
  omega

/-- A digit alone is a number. -/
private theorem decimal_digit {c : Char} (digit : c.isDigit = true) :
    decimal (c.toNat - '0'.toNat) = [c] := by
  obtain ⟨small, same⟩ := digitChar_of_isDigit digit
  rw [decimal, Nat.toDigits_of_lt_base small, same]

/-- A digit behind a positive number is one more digit of a number. -/
private theorem decimal_append_digit {value : Nat} (positive : 0 < value) {c : Char}
    (digit : c.isDigit = true) :
    decimal value ++ [c] = decimal (value * 10 + (c.toNat - '0'.toNat)) := by
  have appended := Nat.toDigits_append_toDigits (by decide) positive (digitChar_of_isDigit digit).1
  rw [← decimal_digit digit, Nat.mul_comm]
  exact appended

/-- A number with more digits is not smaller. -/
private theorem le_of_decimal_append {value n : Nat} {more : List Char}
    (written : decimal n = decimal value ++ more) : value ≤ n := by
  have valueOf (k : Nat) : Nat.ofDigitChars 10 (decimal k) 0 = k := Nat.ofDigitChars_ten_toDigits
  have split := valueOf n
  rw [written, Nat.ofDigitChars_append, valueOf, Nat.ofDigitChars_eq_ofDigitChars_zero] at split
  have power : 1 * value ≤ 10 ^ more.length * value :=
    Nat.mul_le_mul_right value (Nat.one_le_pow _ _ (by decide))
  omega

/-- Zero is written with one digit only. -/
private theorem decimal_ne_zero_cons {n : Nat} {c : Char} {more : List Char} :
    decimal n ≠ '0' :: c :: more := by
  intro written
  rcases Nat.eq_zero_or_pos n with rfl | positive
  · cases written
  · exact Json.head?_decimal_ne_zero positive (by rw [written]; rfl)

end Text

namespace Version

open Text (decimal)

/-- What follows a number does not go on with a digit. -/
def NoDigit (rest : List Char) : Prop :=
  ∀ c ∈ rest.head?, c.isDigit = false

variable {part : VersionPart} {value n : Nat} {text rest : List Char} {c : Char}

/-- Where no digit follows, a number is at its end. -/
private theorem ends_iff (fits : value < 18446744073709551616) (noDigit : NoDigit text) :
    (Except.ok (value, text) : Except VersionFault _) = .ok (n, rest) ↔
      n < 18446744073709551616 ∧ NoDigit rest ∧
        ∃ more, text = more ++ rest ∧ decimal n = decimal value ++ more := by
  constructor
  · intro read
    cases read
    exact ⟨fits, noDigit, [], rfl, (List.append_nil _).symm⟩
  · rintro ⟨-, -, more, rfl, written⟩
    obtain rfl : more = [] := by
      cases more with
      | nil => rfl
      | cons c more =>
        have member : c ∈ decimal n := by simp [written]
        have digit := Json.isDigit_of_mem_decimal member
        rw [noDigit c rfl] at digit
        cases digit
    rw [List.append_nil] at written
    rw [Text.decimal_injective written, List.nil_append]

/-- Where a digit follows, a number goes on. -/
private theorem goes_on_iff (digit : c.isDigit = true) {front : List Char} :
    (NoDigit rest ∧ ∃ more, c :: text = more ++ rest ∧ decimal n = front ++ more) ↔
      NoDigit rest ∧ ∃ more, text = more ++ rest ∧ decimal n = front ++ c :: more := by
  refine and_congr_right fun noDigit => ⟨?_, ?_⟩
  · rintro ⟨more, same, written⟩
    cases more with
    | nil =>
      obtain rfl : c :: text = rest := same
      rw [noDigit c rfl] at digit
      cases digit
    | cons d more =>
      obtain ⟨rfl, rfl⟩ := List.cons.inj same
      exact ⟨more, rfl, written⟩
  · rintro ⟨more, rfl, written⟩
    exact ⟨c :: more, rfl, written⟩

/-- Behind digits that were read, the digits of the number are read to their end. -/
private theorem readDigits_eq_ok_iff (fits : value < 18446744073709551616) :
    readDigits part true value text = .ok (n, rest) ↔
      n < 18446744073709551616 ∧ NoDigit rest ∧
        ∃ more, text = more ++ rest ∧ decimal n = decimal value ++ more := by
  induction text generalizing value with
  | nil => exact ends_iff fits nofun
  | cons c text ih =>
    by_cases digit : c.isDigit = true
    · rw [goes_on_iff digit]
      rcases Nat.eq_zero_or_pos value with rfl | positive
      · -- Behind a leading zero no digit is read, and no number goes on.
        have refused : readDigits part true 0 (c :: text) = .error (.leadingZero part) := by
          simp [readDigits, digit]
        rw [refused]
        exact ⟨nofun, fun ⟨_, _, _, _, written⟩ => absurd written Text.decimal_ne_zero_cons⟩
      · have step (more : List Char) : decimal value ++ c :: more =
            decimal (value * 10 + (c.toNat - '0'.toNat)) ++ more := by
          rw [← Text.decimal_append_digit positive digit, List.append_assoc]
          rfl
        have notZero : value ≠ 0 := Nat.ne_of_gt positive
        simp only [readDigits, digit, notZero, and_false, if_true, if_false, step]
        split
        · next small => exact ih small
        · next large =>
          -- A number that goes on like this is too large.
          refine ⟨nofun, fun ⟨fitting, _, _, _, written⟩ => ?_⟩
          exact absurd (Nat.lt_of_le_of_lt (Text.le_of_decimal_append written) fitting) large
    · have noDigit : NoDigit (c :: text) := by simpa [NoDigit] using digit
      rw [← ends_iff fits noDigit]
      simp [readDigits, digit]

/-- A number is read if the text begins with its digits, without a leading zero, and if it fits into
64 bits. -/
theorem readNumber_eq_ok_iff :
    readNumber part text = .ok (n, rest) ↔
      n < 18446744073709551616 ∧ NoDigit rest ∧ text = decimal n ++ rest := by
  cases text with
  | nil =>
    refine ⟨nofun, fun ⟨_, _, same⟩ => ?_⟩
    exact absurd (List.append_eq_nil_iff.mp same.symm).1 Nat.toDigits_ne_nil
  | cons c text =>
    by_cases digit : c.isDigit = true
    · have small : c.toNat - '0'.toNat < 18446744073709551616 :=
        Nat.lt_trans (Text.digitChar_of_isDigit digit).1 (by decide)
      have first : readNumber part (c :: text) =
          readDigits part true (c.toNat - '0'.toNat) text := by
        simp only [readNumber, readDigits, digit, Bool.false_eq_true, false_and, if_true, if_false,
          Nat.zero_mul, Nat.zero_add, small]
      -- The digit that was read first is the front of the numeral that the others go on with.
      have begun (more : List Char) : [c] ++ more = [] ++ c :: more := rfl
      rw [first, readDigits_eq_ok_iff small, Text.decimal_digit digit]
      simp only [begun, ← goes_on_iff digit]
      simp
    · have refused : readNumber part (c :: text) = .error (.unexpectedChar part c) := by
        simp [readNumber, readDigits, digit]
      rw [refused]
      refine ⟨nofun, fun ⟨_, _, same⟩ => ?_⟩
      obtain ⟨d, front, written⟩ := Json.exists_decimal n
      have member : d ∈ decimal n := by simp [written]
      rw [written] at same
      obtain ⟨rfl, -⟩ := List.cons.inj same
      exact absurd (Json.isDigit_of_mem_decimal member) digit

private theorem readPoint_eq_ok_iff : readPoint part text = .ok rest ↔ text = '.' :: rest := by
  cases text with
  | nil => exact ⟨nofun, nofun⟩
  | cons c text =>
    by_cases point : c = '.'
    · simp [readPoint, point]
    · simp [readPoint, point]

/-- A version begins with two numbers, each before a point. -/
theorem exists_tail_of_parse {version : Version} (parsed : parse text = .ok version) :
    version.major < 18446744073709551616 ∧ version.minor < 18446744073709551616 ∧
      ∃ tail, text = decimal version.major ++ '.' :: (decimal version.minor ++ '.' :: tail) := by
  have notEmpty : text.isEmpty = false := by
    cases text with
    | nil => cases parsed
    | cons c text => rfl
  simp only [parse, notEmpty, Bool.false_eq_true, if_false, bind_eq_ok_iff] at parsed
  -- The steps of the parser, of which those up to the second point matter.
  obtain ⟨⟨major, afterMajor⟩, readMajor, afterPoint, point, ⟨minor, afterMinor⟩, readMinor, tail,
    second, ⟨patch, afterPatch⟩, -, ⟨preRelease, part, afterPre⟩, -, ⟨build, last, rest⟩, -, ends⟩ :=
    parsed
  obtain ⟨majorFits, -, rfl⟩ := readNumber_eq_ok_iff.mp readMajor
  obtain rfl := readPoint_eq_ok_iff.mp point
  obtain ⟨minorFits, -, rfl⟩ := readNumber_eq_ok_iff.mp readMinor
  obtain rfl := readPoint_eq_ok_iff.mp second
  cases rest with
  | cons c rest => cases ends
  | nil =>
    cases ends
    exact ⟨majorFits, minorFits, tail, rfl⟩

/-- Three numbers that fit are a version. -/
theorem parse_numbers {major minor patch : Nat} (majorFits : major < 18446744073709551616)
    (minorFits : minor < 18446744073709551616) (patchFits : patch < 18446744073709551616) :
    parse (decimal major ++ '.' :: (decimal minor ++ '.' :: decimal patch)) =
      .ok ⟨major, minor, patch, [], []⟩ := by
  have point (rest : List Char) : NoDigit ('.' :: rest) := by simp [NoDigit]
  have readMajor {rest : List Char} : readNumber .major (decimal major ++ '.' :: rest) =
      .ok (major, '.' :: rest) := readNumber_eq_ok_iff.mpr ⟨majorFits, point rest, rfl⟩
  have readMinor {rest : List Char} : readNumber .minor (decimal minor ++ '.' :: rest) =
      .ok (minor, '.' :: rest) := readNumber_eq_ok_iff.mpr ⟨minorFits, point rest, rfl⟩
  have readPatch : readNumber .patch (decimal patch) = .ok (patch, []) :=
    readNumber_eq_ok_iff.mpr ⟨patchFits, nofun, (List.append_nil _).symm⟩
  have notEmpty :
      (decimal major ++ '.' :: (decimal minor ++ '.' :: decimal patch)).isEmpty = false := by
    simp
  simp only [parse, notEmpty, Bool.false_eq_true, if_false, readMajor, readMinor, readPatch,
    readPoint, readMarked, if_true, ok_bind]
  rfl

end Version
end Blueprint
