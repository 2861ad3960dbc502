/-!
# Text

Total functions on lists of characters that the rest of the library reads and writes with:
blank characters and trimming, splitting at a character, searching for and replacing a piece.
Each of them is a recursion on the list, and the small lemmas beside them say what it keeps.
-/

namespace Blueprint.Text

/-- The characters with the white space property. -/
def isBlank (c : Char) : Bool :=
  let n := c.toNat
  (9 ≤ n && n ≤ 13) || n == 0x20 || n == 0x85 || n == 0xA0 || n == 0x1680 ||
    (0x2000 ≤ n && n ≤ 0x200A) || n == 0x2028 || n == 0x2029 || n == 0x202F || n == 0x205F ||
    n == 0x3000

/-- Drops the longest end whose characters all satisfy `drop`. -/
def dropEndWhile (drop : Char → Bool) : List Char → List Char
  | [] => []
  | c :: rest =>
    match dropEndWhile drop rest with
    | [] => if drop c then [] else [c]
    | kept => c :: kept

def trim (text : List Char) : List Char :=
  dropEndWhile isBlank (text.dropWhile isBlank)

/-- The pieces between occurrences of `separator`; never empty. -/
def splitAtChar (separator : Char) : List Char → List (List Char)
  | [] => [[]]
  | c :: rest =>
    if c = separator then [] :: splitAtChar separator rest
    else match splitAtChar separator rest with
      | [] => [[c]]
      | first :: others => (c :: first) :: others

def contains (piece : List Char) : List Char → Bool
  | [] => piece.isEmpty
  | c :: rest => piece.isPrefixOf (c :: rest) || contains piece rest

/-- The text with every occurrence of `piece`, found from left to right, replaced. The first
argument counts the characters that still belong to an occurrence already replaced. -/
def replaceFrom (piece replacement : List Char) : Nat → List Char → List Char
  | _, [] => []
  | covered + 1, _ :: rest => replaceFrom piece replacement covered rest
  | 0, c :: rest =>
    if piece.isPrefixOf (c :: rest) then
      replacement ++ replaceFrom piece replacement (piece.length - 1) rest
    else c :: replaceFrom piece replacement 0 rest

/-- The text with every occurrence of a non-empty `piece` replaced; occurrences are found from
left to right and do not overlap. -/
def replaceAll (piece replacement text : List Char) : List Char :=
  replaceFrom piece replacement 0 text

/-- Removes `start` from the front of a text that begins with it. -/
def stripStart? : List Char → List Char → Option (List Char)
  | [], text => some text
  | _ :: _, [] => none
  | s :: start, c :: text => if s = c then stripStart? start text else none

/-- The numerical value of a digit in a base up to sixteen. -/
def digitValue? (base : Nat) (c : Char) : Option Nat :=
  let value? :=
    if c.isDigit then some (c.toNat - '0'.toNat)
    else if 'a' ≤ c ∧ c ≤ 'f' then some (c.toNat - 'a'.toNat + 10)
    else if 'A' ≤ c ∧ c ≤ 'F' then some (c.toNat - 'A'.toNat + 10)
    else none
  value?.filter (· < base)

/-- The number that a non-empty list of digits denotes in a base. -/
def natOfDigits? (base : Nat) : List Char → Option Nat
  | [] => none
  | digits => digits.foldlM (fun value c => (digitValue? base c).map (value * base + ·)) 0

/-- The digit written for a value below sixteen, in upper case. -/
def upperDigit (value : Nat) : Char :=
  if value < 10 then Char.ofNat ('0'.toNat + value) else Char.ofNat ('A'.toNat + (value - 10))

/-- The last `width` digits of a number in base sixteen, in upper case. -/
def upperHex : (width : Nat) → Nat → List Char
  | 0, _ => []
  | width + 1, value => upperHex width (value / 16) ++ [upperDigit (value % 16)]

/-- The decimal digits of a number. -/
def decimal (n : Nat) : List Char :=
  Nat.toDigits 10 n

/-- Whether a number lies in one of the inclusive ranges. -/
def inRanges (ranges : List (Nat × Nat)) (n : Nat) : Bool :=
  ranges.any fun range => range.1 ≤ n && n ≤ range.2

/-- Lines of text without their line feeds; the last line need not end in one. -/
def lines (text : List Char) : List (List Char) :=
  splitAtChar '\n' text

@[simp] theorem stripStart?_append (start text : List Char) :
    stripStart? start (start ++ text) = some text := by
  induction start with
  | nil => rfl
  | cons c start ih => simp [stripStart?, ih]

theorem eq_append_of_stripStart? {start text rest : List Char}
    (stripped : stripStart? start text = some rest) : text = start ++ rest := by
  induction start generalizing text with
  | nil => simpa [stripStart?] using stripped
  | cons s start ih =>
    cases text with
    | nil => simp [stripStart?] at stripped
    | cons c text =>
      by_cases same : s = c
      · subst same
        simp only [stripStart?, if_true] at stripped
        simp [ih stripped]
      · simp [stripStart?, same] at stripped

end Blueprint.Text
