import Blueprint.Json.Parser
import Blueprint.Json.Printer

/-!
# Numbers and strings of JSON read back

A whole number is written as the digits that its reader turns into it again, provided that nothing
follows which could belong to a number. A string is written character by character, and each
character, however it is escaped, is one step of the reader.
-/

namespace Blueprint.Json

/-! ## Numbers -/

/-- What follows a number does not belong to it. -/
def Ends (rest : List Char) : Prop :=
  ∀ c ∈ rest.head?, c.isDigit = false ∧ c ≠ '.' ∧ c ≠ 'e' ∧ c ≠ 'E'

private theorem ofDigits_decimal (n : Nat) : ofDigits ((Text.decimal n).map digit) = n := by
  have value : ofDigits ((Text.decimal n).map digit) = Nat.ofDigitChars 10 (Text.decimal n) 0 := by
    simp only [ofDigits, Nat.ofDigitChars, List.foldl_map, digit, Nat.mul_comm]
  rw [value]
  exact Nat.ofDigitChars_ten_toDigits

theorem isDigit_of_mem_decimal {n : Nat} {c : Char} (member : c ∈ Text.decimal n) :
    c.isDigit = true :=
  Nat.isDigit_of_mem_toDigits (by decide) (by decide) member

theorem exists_decimal (n : Nat) : ∃ c front, Text.decimal n = c :: front :=
  List.exists_cons_of_ne_nil Nat.toDigits_ne_nil

/-- Only zero is written with a zero in front. -/
theorem head?_decimal_ne_zero {n : Nat} (positive : 0 < n) :
    (Text.decimal n).head? ≠ some '0' := by
  induction n using Nat.base_induction 10 (by decide) with
  | single n small =>
    rw [Text.decimal, Nat.toDigits_of_lt_base small]
    simpa using Nat.ne_of_gt positive
  | digit front last lastSmall frontPositive ih =>
    have split : Text.decimal (10 * front + last) = Text.decimal front ++ Nat.toDigits 10 last :=
      (Nat.toDigits_append_toDigits (by decide) frontPositive lastSmall).symm
    -- The first digit is among those of the front, which is positive too.
    have nonempty : Text.decimal front ≠ [] := Nat.toDigits_ne_nil
    rw [split, List.head?_append, List.head?_eq_some_head nonempty, Option.some_or,
      ← List.head?_eq_some_head nonempty]
    exact ih frontPositive

/-- The digits of a number are read up to what follows. -/
private theorem digits_decimal (n : Nat) {rest : List Char} (ends : Ends rest) :
    digits (Text.decimal n ++ rest) = ((Text.decimal n).map digit, rest) := by
  have all : ∀ c ∈ Text.decimal n, c.isDigit = true := fun _ => isDigit_of_mem_decimal
  have stop : rest.takeWhile Char.isDigit = [] ∧ rest.dropWhile Char.isDigit = rest := by
    cases rest with
    | nil => simp
    | cons c rest => simp [(ends c rfl).1]
  rw [digits, List.takeWhile_append_of_pos all, List.dropWhile_append_of_pos all, stop.1, stop.2,
    List.append_nil]

private theorem digits?_decimal (n : Nat) {rest : List Char} (ends : Ends rest) :
    digits? (Text.decimal n ++ rest) = some ((Text.decimal n).map digit, rest) := by
  obtain ⟨c, front, written⟩ := exists_decimal n
  rw [digits?, digits_decimal n ends, written]
  rfl

/-- Only zero takes the branch of a leading zero, and it is a zero alone. -/
private theorem wholePart?_decimal (n : Nat) {rest : List Char} (ends : Ends rest) :
    wholePart? (Text.decimal n ++ rest) = some ((Text.decimal n).map digit, rest) := by
  rcases Nat.eq_zero_or_pos n with rfl | positive
  · have stop : (rest.head?.map Char.isDigit).getD false = false := by
      cases rest with
      | nil => rfl
      | cons c rest => exact (ends c rfl).1
    show (if (rest.head?.map Char.isDigit).getD false then none else some ([0], rest)) = _
    rw [stop]
    rfl
  · -- The branch of a leading zero is not taken, so the digits are read as any others.
    rw [← digits?_decimal n ends]
    have head := head?_decimal_ne_zero positive
    obtain ⟨c, front, written⟩ := exists_decimal n
    rw [written] at head ⊢
    unfold wholePart?
    split
    · rename_i rest' same
      injection same with same _
      exact absurd (congrArg some same) head
    · rfl

private theorem fractionPart?_of_ends {rest : List Char} (ends : Ends rest) :
    fractionPart? rest = some (none, rest) := by
  unfold fractionPart?
  split
  · exact absurd rfl (ends '.' rfl).2.1
  · rfl

private theorem exponentPart?_of_ends {rest : List Char} (ends : Ends rest) :
    exponentPart? rest = some (none, rest) := by
  cases rest with
  | nil => rfl
  | cons c rest =>
    have noExponent : ¬(c = 'e' ∨ c = 'E') := by
      rintro (same | same)
      · exact (ends c rfl).2.2.1 same
      · exact (ends c rfl).2.2.2 same
    unfold exponentPart?
    exact if_neg noExponent

private theorem le_foldl_digits (digits : List Nat) (value : Nat) :
    value ≤ digits.foldl (fun value digit => value * 10 + digit) value := by
  induction digits generalizing value with
  | nil => exact Nat.le_refl value
  | cons digit rest ih => exact Nat.le_trans (by omega) (ih (value * 10 + digit))

/-- All digits are taken into the significand of a number that fits into 64 bits. -/
private theorem takeDigits_of_fits (digits : List Nat) (significand taken : Nat)
    (fits : digits.foldl (fun value digit => value * 10 + digit) significand <
      18446744073709551616) :
    Decimal.takeDigits significand taken digits =
      (digits.foldl (fun value digit => value * 10 + digit) significand,
        taken + digits.length) := by
  induction digits generalizing significand taken with
  | nil => rfl
  | cons digit rest ih =>
    -- Significands only grow, so the next one fits because the last one does.
    have next : significand * 10 + digit < 18446744073709551616 :=
      Nat.lt_of_le_of_lt (le_foldl_digits rest _) fits
    rw [Decimal.takeDigits, if_pos next, ih _ _ fits, List.length_cons, List.foldl_cons]
    congr 1
    omega

/-- Digits without fraction and exponent are the whole number that they denote. -/
private theorem value?_decimal {n : Whole} {negative : Bool}
    (sign : n.value = if negative then -(n.value.natAbs : Int) else n.value.natAbs)
    (noZero : negative = true → n.value ≠ 0) :
    Decimal.value? ⟨negative, (Text.decimal n.value.natAbs).map digit, none, none⟩ =
      some (.whole n) := by
  have fits : ofDigits ((Text.decimal n.value.natAbs).map digit) < 18446744073709551616 := by
    have := n.inRange
    rw [ofDigits_decimal]
    omega
  have taken := takeDigits_of_fits _ 0 0 fits
  rw [show List.foldl _ 0 _ = ofDigits _ from rfl, ofDigits_decimal] at taken
  -- A zero with a minus sign would be read as a floating point number.
  have exactly : ¬(negative = true ∧ n.value.natAbs = 0) := by
    rintro ⟨isNegative, zero⟩
    exact noZero isNegative (Int.natAbs_eq_zero.mp zero)
  have value : Whole.ofInt? (if negative then -(n.value.natAbs : Int) else n.value.natAbs) =
      some n := by
    rw [← sign, Whole.ofInt?_value]
  simp only [Decimal.value?, taken, Nat.zero_add, Nat.sub_self, true_and, if_pos exactly, value]

/-- A whole number is read back from its text. -/
theorem number?_toText (n : Whole) {rest : List Char} (ends : Ends rest) :
    number? (n.toText ++ rest) = some (.number (some (.whole n)), rest) := by
  have whole := wholePart?_decimal n.value.natAbs ends
  have fraction := fractionPart?_of_ends ends
  have exponent := exponentPart?_of_ends ends
  by_cases isNegative : n.value < 0
  · have sign : n.value = -(n.value.natAbs : Int) := by omega
    have value := @value?_decimal n true (by rwa [if_pos rfl]) (by intro _; omega)
    rw [Whole.toText, if_pos isNegative, List.cons_append]
    unfold number?
    simp [whole, fraction, exponent, value]
  · have sign : n.value = n.value.natAbs := by omega
    have value := @value?_decimal n false (by rwa [if_neg Bool.false_ne_true]) (by simp)
    -- A text of digits is not taken for one with a sign.
    have noSign (text : List Char) : Text.decimal n.value.natAbs ++ rest ≠ '-' :: text := by
      intro same
      obtain ⟨c, front, written⟩ := exists_decimal n.value.natAbs
      rw [written] at same
      injection same with same _
      have sign : '-' ∈ Text.decimal n.value.natAbs := by simp [written, same]
      exact absurd (isDigit_of_mem_decimal sign) (by decide)
    rw [Whole.toText, if_neg isNegative, number?.eq_2 _ noSign]
    simp [whole, fraction, exponent, value]

/-! ## Strings -/

/-- What the reader of strings finds where a character was written: the rare controls stand there
by their numbers. -/
def unitOf (c : Char) : Unit16 :=
  if c.toNat < 0x20 ∧ c ≠ '\n' ∧ c ≠ '\r' ∧ c ≠ '\t' ∧ c ≠ '\x08' ∧ c ≠ '\x0c' then .unit c.toNat
  else .char c

/-- The four digits of a control are its number. -/
theorem natOfDigits?_control : ∀ n < 0x20, Text.natOfDigits? 16
    ['0', '0', if n < 0x10 then '0' else '1', Nat.digitChar (n % 16)] = some n := by
  decide

private theorem hexUnit?_control {n : Nat} (control : n < 0x20) (rest : List Char) :
    hexUnit? ('0' :: '0' :: (if n < 0x10 then '0' else '1') :: Nat.digitChar (n % 16) :: rest) =
      some (n, rest) := by
  rw [hexUnit?, natOfDigits?_control n control]
  rfl

/-- One step of the reader takes one character, however it is escaped. -/
private theorem stringUnits?_escapeChar (fuel : Nat) (c : Char) (rest : List Char) :
    stringUnits? (fuel + 1) (Text.escapeChar c ++ rest) =
      (stringUnits? fuel rest).map fun (units, rest) => (unitOf c :: units, rest) := by
  -- Seven characters have an escape with a letter or sign of their own.
  by_cases named : c ∈ ['"', '\\', '\n', '\r', '\t', '\x08', '\x0c']
  · simp only [List.mem_cons, List.not_mem_nil, or_false] at named
    rcases named with rfl | rfl | rfl | rfl | rfl | rfl | rfl <;> rfl
  simp only [List.mem_cons, List.not_mem_nil, or_false, not_or] at named
  obtain ⟨quote, backslash, lineFeed, carriageReturn, tab, backspace, formFeed⟩ := named
  simp only [Text.escapeChar, unitOf, quote, backslash, lineFeed, carriageReturn, tab, backspace,
    formFeed, if_false, not_false_eq_true, and_true, ne_eq]
  by_cases control : c.toNat < 0x20
  · simp only [if_pos control, List.cons_append, List.nil_append]
    rw [stringUnits?, hexUnit?_control control]
  · simp only [if_neg control, List.cons_append, List.nil_append]
    rw [stringUnits?, if_neg control]
    · exact fun same => quote same
    · exact fun same => backslash same

/-- Escaped characters are read one by one up to the closing quotation mark. -/
private theorem stringUnits?_escape {fuel : Nat} (text rest : List Char)
    (enough : text.length < fuel) :
    stringUnits? fuel (Text.escape text ++ '"' :: rest) = some (text.map unitOf, rest) := by
  induction text generalizing fuel with
  | nil =>
    obtain ⟨fuel, rfl⟩ : ∃ n, fuel = n + 1 := ⟨fuel - 1, by simp at enough; omega⟩
    rfl
  | cons c text ih =>
    obtain ⟨fuel, rfl⟩ : ∃ n, fuel = n + 1 := ⟨fuel - 1, by omega⟩
    have tail := ih (Nat.lt_of_succ_lt_succ enough)
    rw [Text.escape, List.flatMap_cons, List.append_assoc, stringUnits?_escapeChar, ← Text.escape,
      tail]
    rfl

/-- A unit below the surrogates is a character whatever follows. -/
private theorem joinUnits?_unit {value : Nat} (low : value < 0xD800) (units : List Unit16) :
    joinUnits? (.unit value :: units) = (joinUnits? units).map (Char.ofNat value :: ·) := by
  have noHigh : ¬(0xD800 ≤ value ∧ value < 0xDC00) := by omega
  have noLow : ¬(0xDC00 ≤ value ∧ value < 0xE000) := by omega
  have noHalf : ¬(0xD800 ≤ value ∧ value < 0xE000) := by omega
  rcases units with _ | ⟨⟨c⟩ | ⟨next⟩, units⟩
  · simp only [joinUnits?, if_neg noHalf]
  · simp only [joinUnits?, if_neg noHalf]
  · rw [joinUnits?, if_neg noHigh, if_neg noLow]

/-- No character is lost between what was written and what is found. -/
private theorem joinUnits?_map_unitOf (text : List Char) :
    joinUnits? (text.map unitOf) = some text := by
  induction text with
  | nil => rfl
  | cons c text ih =>
    rw [List.map_cons, unitOf]
    split
    · rename_i control
      rw [joinUnits?_unit (by omega), ih, Option.map_some, Char.ofNat_toNat]
    · rw [joinUnits?, ih, Option.map_some]

private theorem length_le_length_escape (text : List Char) :
    text.length ≤ (Text.escape text).length := by
  induction text with
  | nil => exact Nat.le_refl 0
  | cons c text ih =>
    have one : 1 ≤ (Text.escapeChar c).length := by
      unfold Text.escapeChar
      grind
    simp only [Text.escape, List.flatMap_cons, List.length_append, List.length_cons] at ih ⊢
    omega

/-- A text in quotation marks is read back. -/
theorem string?_escape (text rest : List Char) :
    string? (Text.escape text ++ '"' :: rest) = some (some (String.ofList text), rest) := by
  have enough : text.length < (Text.escape text ++ '"' :: rest).length + 1 := by
    have grows := length_le_length_escape text
    simp only [List.length_append, List.length_cons]
    omega
  rw [string?, stringUnits?_escape text rest enough, Option.map_some]
  simp only [joinUnits?_map_unitOf, Option.map_some]

end Blueprint.Json
