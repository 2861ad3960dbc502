import Blueprint.Json.Syntax
import Blueprint.Json.Decimal
import Blueprint.Text.Basic

/-!
# Reading JSON

The grammar of JSON by recursive descent on the characters of a text. Each function returns what is
left of the text. The fuel bounds the steps; every step reads a character, so one more than the
length of the text is enough (`Json.parse?`).
-/

namespace Blueprint.Json

def skipBlanks : List Char → List Char
  | [] => []
  | c :: rest =>
    if c = ' ' ∨ c = '\n' ∨ c = '\t' ∨ c = '\r' then skipBlanks rest else c :: rest

def digit (c : Char) : Nat :=
  c.toNat - '0'.toNat

def digits (text : List Char) : List Nat × List Char :=
  ((text.takeWhile Char.isDigit).map digit, text.dropWhile Char.isDigit)

/-- Reads digits of which there is at least one. -/
def digits? (text : List Char) : Option (List Nat × List Char) :=
  match digits text with
  | ([], _) => none
  | found => some found

/-- Reads the digits before the point: a zero alone, or digits without a leading zero. -/
def wholePart? : List Char → Option (List Nat × List Char)
  | '0' :: rest => if (rest.head?.map Char.isDigit).getD false then none else some ([0], rest)
  | text => digits? text

def fractionPart? : List Char → Option (Option (List Nat) × List Char)
  | '.' :: rest => (digits? rest).map fun (fraction, rest) => (some fraction, rest)
  | text => some (none, text)

/-- The number that digits denote. -/
def ofDigits (digits : List Nat) : Nat :=
  digits.foldl (fun value digit => value * 10 + digit) 0

def exponentPart? : List Char → Option (Option Int × List Char)
  | [] => some (none, [])
  | c :: rest =>
    if c = 'e' ∨ c = 'E' then
      match rest with
      | '-' :: rest => (digits? rest).map fun (digits, rest) => (some (-(ofDigits digits : Int)), rest)
      | '+' :: rest => (digits? rest).map fun (digits, rest) => (some (ofDigits digits : Int), rest)
      | rest => (digits? rest).map fun (digits, rest) => (some (ofDigits digits : Int), rest)
    else some (none, c :: rest)

def number? (text : List Char) : Option (Json × List Char) := do
  let (negative, text) := match text with
    | '-' :: rest => (true, rest)
    | _ => (false, text)
  let (whole, text) ← wholePart? text
  let (fraction?, text) ← fractionPart? text
  let (exponent?, text) ← exponentPart? text
  return (.number (Decimal.value? { negative, whole, fraction?, exponent? }), text)

/-- A part of a string: a character, or a unit of sixteen bits given by its number. -/
inductive Unit16 where
  | char (c : Char)
  | unit (value : Nat)
deriving DecidableEq, Repr

/-- Reads four digits in base sixteen. -/
def hexUnit? : List Char → Option (Nat × List Char)
  | a :: b :: c :: d :: rest => (Text.natOfDigits? 16 [a, b, c, d]).map (·, rest)
  | _ => none

/-- Reads a string after its opening quotation mark. -/
def stringUnits? : (fuel : Nat) → List Char → Option (List Unit16 × List Char)
  | 0, _ => none
  | _ + 1, [] => none
  | _ + 1, '"' :: rest => some ([], rest)
  | fuel + 1, '\\' :: rest =>
    let simple (c : Char) (rest : List Char) : Option (List Unit16 × List Char) :=
      (stringUnits? fuel rest).map fun (units, rest) => (.char c :: units, rest)
    match rest with
    | '"' :: rest => simple '"' rest
    | '\\' :: rest => simple '\\' rest
    | '/' :: rest => simple '/' rest
    | 'b' :: rest => simple '\x08' rest
    | 'f' :: rest => simple '\x0c' rest
    | 'n' :: rest => simple '\n' rest
    | 'r' :: rest => simple '\r' rest
    | 't' :: rest => simple '\t' rest
    | 'u' :: rest =>
      match hexUnit? rest with
      | some (value, rest) =>
        (stringUnits? fuel rest).map fun (units, rest) => (.unit value :: units, rest)
      | none => none
    | _ => none
  | fuel + 1, c :: rest =>
    if c.toNat < 0x20 then none
    else (stringUnits? fuel rest).map fun (units, rest) => (.char c :: units, rest)

/-- The characters of a string; two units that form a surrogate pair are one character, and a unit
that is half of a pair has no character. -/
def joinUnits? : List Unit16 → Option (List Char)
  | [] => some []
  | .char c :: rest => (joinUnits? rest).map (c :: ·)
  | .unit high :: .unit low :: rest =>
    if 0xD800 ≤ high ∧ high < 0xDC00 then
      if 0xDC00 ≤ low ∧ low < 0xE000 then
        (joinUnits? rest).map
          (Char.ofNat (0x10000 + (high - 0xD800) * 0x400 + (low - 0xDC00)) :: ·)
      else none
    else if 0xDC00 ≤ high ∧ high < 0xE000 then none
    else (joinUnits? (.unit low :: rest)).map (Char.ofNat high :: ·)
  | .unit value :: rest =>
    if 0xD800 ≤ value ∧ value < 0xE000 then none
    else (joinUnits? rest).map (Char.ofNat value :: ·)

/-- Reads a string after its opening quotation mark. -/
def string? (text : List Char) : Option (Option String × List Char) :=
  (stringUnits? (text.length + 1) text).map fun (units, rest) =>
    ((joinUnits? units).map String.ofList, rest)

mutual
/-- Reads a value that starts at the first character. -/
def value? : (fuel : Nat) → List Char → Option (Json × List Char)
  | 0, _ => none
  | _ + 1, [] => none
  | fuel + 1, c :: rest =>
    if c = '\x7b' then
      match skipBlanks rest with
      | '\x7d' :: rest => some (.object [], rest)
      | rest => (members? fuel rest).map fun (members, rest) => (.object members, rest)
    else if c = '[' then
      match skipBlanks rest with
      | ']' :: rest => some (.array [], rest)
      | rest => (items? fuel rest).map fun (items, rest) => (.array items, rest)
    else if c = '"' then (string? rest).map fun (text?, rest) => (.string text?, rest)
    else if c = 't' then (Text.stripStart? "rue".toList rest).map (.bool true, ·)
    else if c = 'f' then (Text.stripStart? "alse".toList rest).map (.bool false, ·)
    else if c = 'n' then (Text.stripStart? "ull".toList rest).map (.null, ·)
    else number? (c :: rest)

/-- Reads the items of an array up to its closing bracket; there is at least one. -/
def items? : (fuel : Nat) → List Char → Option (List Json × List Char)
  | 0, _ => none
  | fuel + 1, text =>
    match value? fuel text with
    | none => none
    | some (item, rest) =>
      match skipBlanks rest with
      | ',' :: rest =>
        (items? fuel (skipBlanks rest)).map fun (items, rest) => (item :: items, rest)
      | ']' :: rest => some ([item], rest)
      | _ => none

/-- Reads the members of an object up to its closing brace; there is at least one. -/
def members? : (fuel : Nat) → List Char → Option (List (Option String × Json) × List Char)
  | 0, _ => none
  | fuel + 1, '"' :: text =>
    match string? text with
    | none => none
    | some (name?, rest) =>
      match skipBlanks rest with
      | ':' :: rest =>
        match value? fuel (skipBlanks rest) with
        | none => none
        | some (value, rest) =>
          match skipBlanks rest with
          | ',' :: rest =>
            (members? fuel (skipBlanks rest)).map fun (members, rest) =>
              ((name?, value) :: members, rest)
          | '\x7d' :: rest => some ([(name?, value)], rest)
          | _ => none
      | _ => none
  | _ + 1, _ => none
end

/-- Reads a text that is one value between blanks. -/
def parse? (text : String) : Option Json :=
  let characters := text.toList
  match value? (characters.length + 1) (skipBlanks characters) with
  | some (json, rest) => if (skipBlanks rest).isEmpty then some json else none
  | none => none

end Blueprint.Json
