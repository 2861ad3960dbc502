import Blueprint.Number.Binary64
import Blueprint.Number.Shortest

/-!
# Numbers

A number of a document or a configuration is either whole, within the range that 64 bits with or
without a sign can hold, or a finite binary floating point number.
-/

namespace Blueprint

/-- A whole number that fits into 64 bits, with a sign or without one. -/
structure Whole where
  value : Int
  inRange : -9223372036854775808 ≤ value ∧ value < 18446744073709551616
deriving DecidableEq, Repr

namespace Whole

/-- The whole number with a value, if the value is in range. -/
def ofInt? (value : Int) : Option Whole :=
  if inRange : -9223372036854775808 ≤ value ∧ value < 18446744073709551616 then
    some ⟨value, inRange⟩
  else none

/-- The whole number that a natural number is, if it is in range. -/
def ofNat? (value : Nat) : Option Whole :=
  if inRange : value < 18446744073709551616 then some ⟨value, by omega⟩ else none

/-- The natural number that a whole number is, if it is not negative. -/
def toNat? (n : Whole) : Option Nat :=
  if 0 ≤ n.value then some n.value.toNat else none

/-- Decimal digits, after a minus sign when the number is negative. -/
def toText (n : Whole) : List Char :=
  if n.value < 0 then '-' :: Text.decimal n.value.natAbs else Text.decimal n.value.natAbs

instance : Inhabited Whole := ⟨⟨0, by decide⟩⟩

@[ext] theorem ext {m n : Whole} (same : m.value = n.value) : m = n := by
  cases m; cases n; simp_all

@[simp] theorem ofInt?_value (n : Whole) : ofInt? n.value = some n := by
  simpa [ofInt?] using n.inRange

end Whole

/-- A number. -/
inductive Number where
  | whole (n : Whole)
  | real (x : Binary64)
deriving DecidableEq, Repr

namespace Number

def toText (layout : Binary64.Layout) : Number → List Char
  | whole n => n.toText
  | real x => x.toText layout

/-- The whole number that a number is: its own value, or the value of a floating point number
without a fractional part that is in range. -/
def normalize : Number → Number
  | whole n => whole n
  | real x =>
    match x.toInt?.bind Whole.ofInt? with
    | some n => whole n
    | none => real x

/-- The number as an index into a list. -/
def toIndex? : Number → Option Nat
  | whole n => n.toNat?
  | real _ => none

end Number
end Blueprint
