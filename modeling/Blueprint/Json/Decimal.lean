import Blueprint.Number

/-!
# Numbers in JSON

A number is whole when it is written without fraction and exponent and is in range. Any other number
is read from its leading digits, as many as fit into 64 bits, and one multiplication or division by
a power of ten; numbers that grow beyond the largest finite one have no value.
-/

namespace Blueprint.Json

/-- The parts of a number as it is written. -/
structure Decimal where
  negative : Bool
  whole : List Nat
  fraction? : Option (List Nat)
  exponent? : Option Int
deriving DecidableEq, Repr

namespace Decimal

/-- Takes digits into a significand while it fits into 64 bits; also counts the digits taken. -/
def takeDigits (significand taken : Nat) : List Nat → Nat × Nat
  | [] => (significand, taken)
  | digit :: rest =>
    let next := significand * 10 + digit
    if next < 18446744073709551616 then takeDigits next (taken + 1) rest else (significand, taken)

/-- The power of ten as a floating point number; exponents go up to 308. -/
def power? (exponent : Nat) : Option Binary64 :=
  if exponent ≤ 308 then Binary64.ofRatio? false (Nat.pow 10 exponent) 1 else none

/-- A number times `10 ^ exponent`. An exponent below the least power is taken in several steps. -/
def scaleBy : (steps : Nat) → Binary64 → Int → Option Binary64
  | 0, _, _ => none
  | steps + 1, x, exponent =>
    match power? exponent.natAbs with
    | some power => if 0 ≤ exponent then x.mul? power else x.div? power
    | none =>
      if x.isZero then some x
      else if 0 ≤ exponent then none
      else match power? 308 with
        | some power => (x.div? power).bind fun x => scaleBy steps x (exponent + 308)
        | none => none

/-- The limit of exponents as they are written. -/
def exponentLimit : Int := 2147483647

/-- `significand · 10 ^ exponent` with a sign. -/
def real? (negative : Bool) (significand : Nat) (exponent : Int) : Option Number := do
  let x ← Binary64.ofRatio? false significand 1
  let scaled ← scaleBy 8 x exponent
  return .real (if negative then scaled.neg else scaled)

/-- The number that the digits denote. -/
def value? (decimal : Decimal) : Option Number :=
  let (significand, taken) := takeDigits 0 0 decimal.whole
  let dropped := decimal.whole.length - taken
  match decimal.fraction?, decimal.exponent? with
  | none, none =>
    let value : Int := if decimal.negative then -(significand : Int) else significand
    if dropped = 0 ∧ ¬(decimal.negative ∧ significand = 0) then
      match Whole.ofInt? value with
      | some n => some (.whole n)
      | none => real? decimal.negative significand 0
    else real? decimal.negative significand dropped
  | fraction?, exponent? =>
    let (significand, places) := takeDigits significand 0 (fraction?.getD [])
    let start : Int := (dropped : Int) - places
    match exponent? with
    | none => real? decimal.negative significand start
    | some exponent =>
      if exponentLimit < exponent.natAbs then
        if significand ≠ 0 ∧ 0 < exponent then none
        else some (.real (Binary64.zero decimal.negative))
      else real? decimal.negative significand (start + exponent)

end Decimal
end Blueprint.Json
