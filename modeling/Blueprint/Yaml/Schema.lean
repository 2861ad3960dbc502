import Blueprint.Number
import Blueprint.Value

/-!
# The meaning of plain scalars

What a plain scalar without a tag stands for: null, a truth value, a whole number in one of four
bases, a floating point number, or the text itself.
-/

namespace Blueprint.Yaml

/-- Whether a text is one of the spellings of null. -/
def isNull (text : List Char) : Bool :=
  text == "null".toList || text == "Null".toList || text == "NULL".toList || text == ['~']

/-- The truth value that a text spells. -/
def bool? (text : List Char) : Option Bool :=
  if text ∈ ["true".toList, "True".toList, "TRUE".toList] then some true
  else if text ∈ ["false".toList, "False".toList, "FALSE".toList] then some false
  else none

/-- A text without a sign in front of it. -/
def dropSign : List Char → List Char
  | '+' :: rest | '-' :: rest => rest
  | text => text

/-- Whether a text is digits with a leading zero, which do not make a number. -/
def isPaddedDigits (text : List Char) : Bool :=
  let digits := dropSign text
  1 < digits.length && digits.head? == some '0' && digits.all Char.isDigit

/-- The number that digits after a mark of their base denote. -/
def basedNat? (text : List Char) : Option Nat :=
  match text with
  | '0' :: 'x' :: digits => Text.natOfDigits? 16 digits
  | '0' :: 'o' :: digits => Text.natOfDigits? 8 digits
  | '0' :: 'b' :: digits => Text.natOfDigits? 2 digits
  | _ => none

/-- The number without a minus sign that a text spells. -/
def nat? (text : List Char) : Option Nat :=
  let unsigned := match text with
    | '+' :: rest => rest
    | _ => text
  match basedNat? unsigned with
  | some n => some n
  | none => if isPaddedDigits text then none else Text.natOfDigits? 10 unsigned

/-- The number after a minus sign that a text spells. -/
def negated? (text : List Char) : Option Nat :=
  match text with
  | '-' :: digits =>
    match basedNat? digits with
    | some n => some n
    | none => if isPaddedDigits text then none else Text.natOfDigits? 10 digits
  | _ => none

/-- A whole number, of which only those of 64 bits can be used. -/
inductive Int128 where
  | usable (n : Whole)
  | tooWide
deriving DecidableEq, Repr

/-- The whole number of up to 128 bits that a text spells. -/
def int? (text : List Char) : Option Int128 :=
  let ofInt (n : Int) (low high : Int) : Option Int128 :=
    match Whole.ofInt? n with
    | some n => some (.usable n)
    | none => if low ≤ n ∧ n < high then some .tooWide else none
  match nat? text with
  | some n => ofInt n 0 340282366920938463463374607431768211456
  | none => (negated? text).bind fun n => ofInt (-(n : Int)) (-170141183460469231731687303715884105728) 1

/-- A floating point number as it is spelled. -/
inductive Real where
  | finite (x : Binary64)
  /-- An infinity, or not a number. -/
  | special
deriving DecidableEq, Repr

/-- The finite number that digits with an optional point and exponent denote. -/
def decimal? (negative : Bool) (text : List Char) : Option Binary64 :=
  let whole := text.takeWhile Char.isDigit
  let rest := text.dropWhile Char.isDigit
  let (fraction, rest) := match rest with
    | '.' :: rest => (rest.takeWhile Char.isDigit, rest.dropWhile Char.isDigit)
    | _ => ([], rest)
  let exponent? : Option Int := match rest with
    | [] => some 0
    | c :: rest =>
      if c = 'e' ∨ c = 'E' then
        match rest with
        | '-' :: digits => (Text.natOfDigits? 10 digits).map fun n => -(n : Int)
        | '+' :: digits => (Text.natOfDigits? 10 digits).map fun n => (n : Int)
        | digits => (Text.natOfDigits? 10 digits).map fun n => (n : Int)
      else none
  match Text.natOfDigits? 10 (whole ++ fraction), exponent? with
  | some digits, some exponent => Binary64.ofDecimal? negative digits (exponent - fraction.length)
  | _, _ => none

/-- The floating point number that a text spells. -/
def real? (text : List Char) : Option Real :=
  let unsigned := match text with
    | '+' :: rest => rest
    | _ => text
  let infinity := [".inf".toList, ".Inf".toList, ".INF".toList]
  if unsigned ∈ infinity ∨ text ∈ infinity.map ('-' :: ·) ∨
      text ∈ [".nan".toList, ".NaN".toList, ".NAN".toList] then
    some .special
  else
    let number? := match text with
      | '+' :: rest => decimal? false rest
      | '-' :: rest => decimal? true rest
      | rest => decimal? false rest
    number?.map .finite

/-- The value of a floating point number; what is not finite has none but null. -/
def Real.toValue : Real → Value
  | finite x => .number (.real x)
  | special => .null

/-- The value of a plain scalar; none where it is a whole number that is too wide. -/
def plainValue? (text : List Char) : Option Value :=
  if text.isEmpty || isNull text then some .null
  else match bool? text with
    | some b => some (.bool b)
    | none =>
      match int? text with
      | some (.usable n) => some (.number (.whole n))
      | some .tooWide => none
      | none =>
        if isPaddedDigits text then some (.string (String.ofList text))
        else match real? text with
          | some x => some x.toValue
          | none => some (.string (String.ofList text))

/-- Whether a plain scalar stands for its own text. -/
def isPlainText (text : List Char) : Bool :=
  match plainValue? text with
  | some (.string _) => true
  | _ => false

end Blueprint.Yaml
