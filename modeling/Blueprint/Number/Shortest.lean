import Blueprint.Number.Binary64
import Blueprint.Text.Basic

/-!
# Shortest decimal digits

The fewest decimal digits that read back to a given number: on the grids of one, two, … seventeen
digits the two neighbours of the number are tested, in exact arithmetic, against the interval of
reals that round to it. `Notation` says how the digits are laid out.
-/

namespace Blueprint.Binary64

/-- A decimal number: `digits · 10 ^ exponent`. -/
structure Decimal where
  digits : Nat
  exponent : Int
deriving DecidableEq, Repr

/-- The interval of reals that round to a number, in units of a quarter of the last place: its two
ends, and the exponent of two of the unit. Below a power of two the gap is half as wide. -/
def roundingInterval (x : Binary64) : Nat × Nat × Int :=
  let narrow := x.significand = leastNormal ∧ -1074 < x.exponent
  (4 * x.significand - (if narrow then 1 else 2), 4 * x.significand + 2, x.exponent - 2)

/-- Whether `digits · 10 ^ exponent` rounds to the number: it lies between the ends of the interval,
which count when the significand is even. -/
def readsBack (x : Binary64) (decimal : Decimal) : Bool :=
  let (low, high, unit) := roundingInterval x
  let (a, b) := scale 10 decimal.exponent decimal.digits 1
  let below := scale 2 unit low 1
  let above := scale 2 unit high 1
  if x.significand % 2 = 0 then
    below.1 * b ≤ a * below.2 && a * above.2 ≤ above.1 * b
  else
    below.1 * b < a * below.2 && a * above.2 < above.1 * b

/-- Whether the number is below `10 ^ exponent`. -/
def belowPower (x : Binary64) (exponent : Int) : Bool :=
  let power := scale 10 exponent 1 1
  x.ratio.1 * power.2 < power.1 * x.ratio.2

/-- The least exponent of ten above a number other than zero, found by a few steps up from an
estimate that is too low. -/
def leastPower (x : Binary64) : Int :=
  let estimate : Int := ((x.significand.log2 : Int) + x.exponent) * 30103 / 100000 - 1
  let rec climb : Nat → Int → Int
    | 0, exponent => exponent
    | steps + 1, exponent => if belowPower x exponent then exponent else climb steps (exponent + 1)
  climb 5 estimate

/-- The decimal on the grid `10 ^ exponent` that reads back and is nearer to the number; of two
equally near ones the one with an even last digit. -/
def nearestOnGrid? (x : Binary64) (exponent : Int) : Option Decimal :=
  let (a, b) := scale 10 (-exponent) x.ratio.1 x.ratio.2
  let lower := a / b
  let rest := a % b
  let upperNearer := b < 2 * rest ∨ (b = 2 * rest ∧ lower % 2 = 1)
  let first := if upperNearer then lower + 1 else lower
  let second := if upperNearer then lower else lower + 1
  if readsBack x ⟨first, exponent⟩ then some ⟨first, exponent⟩
  else if readsBack x ⟨second, exponent⟩ then some ⟨second, exponent⟩
  else none

/-- Moves trailing zeros of the digits into the exponent. -/
def Decimal.strip : (steps : Nat) → Decimal → Decimal
  | 0, decimal => decimal
  | steps + 1, decimal =>
    if decimal.digits ≠ 0 ∧ decimal.digits % 10 = 0 then
      strip steps ⟨decimal.digits / 10, decimal.exponent + 1⟩
    else decimal

/-- The decimal with the fewest digits that reads back to the magnitude of a number; seventeen
digits always suffice, and the exact value stands in where none is found. -/
def shortest (x : Binary64) : Decimal :=
  if x.isZero then ⟨0, 0⟩
  else
    let top := leastPower x
    let found := (List.range 17).findSome? fun n => nearestOnGrid? x (top - (n + 1 : Nat))
    match found with
    | some decimal => decimal.strip 17
    | none => ⟨x.significand * Nat.pow 5 x.exponent.natAbs, x.exponent⟩

/-- The decisions of a text format about the layout of digits. -/
structure Layout where
  /-- Whether a positive exponent is written with a plus sign. -/
  plusSign : Bool
deriving DecidableEq, Repr

/-- The text of a number: positional with a point from `10 ^ -5` to `10 ^ 16`, otherwise one digit
before the point and an exponent. -/
def toText (layout : Layout) (x : Binary64) : List Char :=
  let decimal := x.shortest
  let digits := Text.decimal decimal.digits
  let count : Int := digits.length
  let point := count + decimal.exponent
  let unsigned :=
    if x.isZero then ['0', '.', '0']
    else if 0 ≤ decimal.exponent ∧ point ≤ 16 then
      digits ++ List.replicate decimal.exponent.toNat '0' ++ ['.', '0']
    else if 0 < point ∧ point ≤ 16 then
      digits.take point.toNat ++ '.' :: digits.drop point.toNat
    else if -5 < point ∧ point ≤ 0 then
      '0' :: '.' :: List.replicate (-point).toNat '0' ++ digits
    else
      let power := point - 1
      let mark := if power < 0 then ['-'] else if layout.plusSign then ['+'] else []
      let mantissa := match digits with
        | [digit] => [digit]
        | digit :: more => digit :: '.' :: more
        | [] => []
      mantissa ++ 'e' :: mark ++ Text.decimal power.natAbs
  if x.negative then '-' :: unsigned else unsigned

end Blueprint.Binary64
