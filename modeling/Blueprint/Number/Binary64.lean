/-!
# Binary floating point numbers of 64 bits

A finite number is a sign, a significand of at most 53 bits and an exponent of two, in the one
canonical form that the format gives it. All operations go through exact arithmetic on natural
numbers: a quotient is rounded once, to the nearest number and on a tie to the even significand.
-/

namespace Blueprint

/-- A finite number of the format: `± significand · 2 ^ exponent`. The significand has 53 bits, or
fewer where the exponent is the least one. -/
structure Binary64 where
  negative : Bool
  significand : Nat
  exponent : Int
  canonical : significand < 9007199254740992 ∧ -1074 ≤ exponent ∧ exponent ≤ 971 ∧
    (4503599627370496 ≤ significand ∨ exponent = -1074)
deriving DecidableEq, Repr

namespace Binary64

/-- The least significand of 53 bits. -/
abbrev leastNormal : Nat := 4503599627370496

/-- The least significand of 54 bits, which is one too many. -/
abbrev tooWide : Nat := 9007199254740992

def zero (negative : Bool) : Binary64 :=
  ⟨negative, 0, -1074, by decide⟩

instance : Inhabited Binary64 := ⟨zero false⟩

/-- The number with this sign, significand and exponent when they are in canonical form. -/
def ofParts? (negative : Bool) (significand : Nat) (exponent : Int) : Option Binary64 :=
  if canonical : significand < 9007199254740992 ∧ -1074 ≤ exponent ∧ exponent ≤ 971 ∧
      (4503599627370496 ≤ significand ∨ exponent = -1074) then
    some ⟨negative, significand, exponent, canonical⟩
  else none

/-- `numerator / denominator` rounded to the nearest whole number, a tie to the even one. -/
def roundQuotient (numerator denominator : Nat) : Nat :=
  let quotient := numerator / denominator
  let rest := numerator % denominator
  if 2 * rest < denominator then quotient
  else if denominator < 2 * rest then quotient + 1
  else if quotient % 2 = 0 then quotient else quotient + 1

/-- The numerator and denominator of `numerator / denominator · base ^ exponent`. -/
def scale (base : Nat) (exponent : Int) (numerator denominator : Nat) : Nat × Nat :=
  match exponent with
  | .ofNat e => (numerator * Nat.pow base e, denominator)
  | .negSucc e => (numerator, denominator * Nat.pow base (e + 1))

/-- The number nearest to a quotient; `none` when the quotient is too large for the format. -/
def ofRatio? (negative : Bool) (numerator denominator : Nat) : Option Binary64 :=
  if numerator = 0 then some (zero negative)
  else
    let guess : Int := (numerator.log2 : Int) - (denominator.log2 : Int) - 53
    let wide (exponent : Int) : Bool :=
      let scaled := scale 2 (-exponent) numerator denominator
      tooWide * scaled.2 ≤ scaled.1
    let exponent := max (-1074) (if wide guess then guess + 1 else guess)
    let scaled := scale 2 (-exponent) numerator denominator
    let significand := roundQuotient scaled.1 scaled.2
    if significand = tooWide then ofParts? negative leastNormal (exponent + 1)
    else ofParts? negative significand exponent

/-- The numerator and denominator of the magnitude of a number. -/
def ratio (x : Binary64) : Nat × Nat :=
  scale 2 x.exponent x.significand 1

/-- The number nearest to `digits · 10 ^ exponent`; `none` when that is too large. The exponent is
cut off where every number of that many digits is too large or rounds to zero. -/
def ofDecimal? (negative : Bool) (digits : Nat) (exponent : Int) : Option Binary64 :=
  if digits = 0 then some (zero negative)
  else
    let magnitude : Int := (digits.log2 : Int) / 4 + exponent
    if 400 < magnitude then none
    else if ((digits.log2 : Int) / 3 + 1) + exponent < -400 then some (zero negative)
    else
      let scaled := scale 10 exponent digits 1
      ofRatio? negative scaled.1 scaled.2

/-- The product, rounded once. -/
def mul? (x y : Binary64) : Option Binary64 :=
  let a := x.ratio
  let b := y.ratio
  ofRatio? (x.negative != y.negative) (a.1 * b.1) (a.2 * b.2)

/-- The quotient by a number other than zero, rounded once. -/
def div? (x y : Binary64) : Option Binary64 :=
  let a := x.ratio
  let b := y.ratio
  if b.1 = 0 then none else ofRatio? (x.negative != y.negative) (a.1 * b.2) (a.2 * b.1)

def toInt? (x : Binary64) : Option Int :=
  let a := x.ratio
  if a.1 % a.2 = 0 then
    let magnitude : Int := (a.1 / a.2 : Nat)
    some (if x.negative then -magnitude else magnitude)
  else none

def neg (x : Binary64) : Binary64 :=
  { x with negative := !x.negative }

def isZero (x : Binary64) : Bool :=
  x.significand == 0

end Binary64
end Blueprint
