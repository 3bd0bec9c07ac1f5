/-!
# Binary numbers of double precision

A number of double precision is a sign, a mantissa below 2⁵³ and a power of two
from 2⁻¹⁰⁷⁴ to 2⁹⁷¹, or infinite, or no number.  Decimals are read as the nearest
of these numbers, and of two equally near ones as the one with an even mantissa.
All arithmetic is on integers, so reading is exact.
-/

namespace TreeStyle.Decimal

set_option autoImplicit false

/-- A number of double precision. -/
inductive Binary64 where
  /-- The number `mantissa` times two to the power of `exponent`, negated if
  `negative`. -/
  | finite (negative : Bool) (mantissa : Nat) (exponent : Int)
  | infinite (negative : Bool)
  | notANumber
  deriving DecidableEq, Repr

/-- The integer nearest to a quotient, the even one if two are equally near. -/
def roundHalfEven (numerator denominator : Nat) : Nat :=
  let quotient := numerator / denominator
  let twice := 2 * (numerator % denominator)
  if twice < denominator ∨ (twice = denominator ∧ quotient % 2 = 0) then quotient else quotient + 1

namespace Binary64

/-- Zero, with its sign. -/
def zero (negative : Bool) : Binary64 := finite negative 0 0

/-- The exponent with which a positive quotient has a mantissa of 53 bits, or the
least exponent there is. -/
def exponentFor (numerator denominator : Nat) : Int :=
  let guess : Int := (numerator.log2 : Int) - (denominator.log2 : Int) - 52
  let scaledDown (exponent : Int) : Bool :=
    if 0 ≤ exponent then numerator < Nat.pow 2 (52 + exponent.toNat) * denominator
    else numerator * Nat.pow 2 (-exponent).toNat < Nat.pow 2 52 * denominator
  max (-1074) (if scaledDown guess then guess - 1 else guess)

/-- The number nearest to a quotient. -/
def ofQuotient (negative : Bool) (numerator denominator : Nat) : Binary64 :=
  if numerator = 0 then zero negative
  else
    let exponent := exponentFor numerator denominator
    let rounded :=
      if 0 ≤ exponent then roundHalfEven numerator (denominator * Nat.pow 2 exponent.toNat)
      else roundHalfEven (numerator * Nat.pow 2 (-exponent).toNat) denominator
    let (mantissa, exponent) :=
      if rounded = Nat.pow 2 53 then (Nat.pow 2 52, exponent + 1) else (rounded, exponent)
    if mantissa = 0 then zero negative
    else if 971 < exponent then infinite negative
    else finite negative mantissa exponent

/-- The number nearest to `digits` times ten to the power of `exponent`.  Powers far
outside of the range of the numbers are not computed. -/
def ofDecimal (negative : Bool) (digits : Nat) (exponent : Int) : Binary64 :=
  if digits = 0 then zero negative
  else
    let magnitude : Int := ((toString digits).length : Int) + exponent
    if 400 < magnitude then infinite negative
    else if magnitude < -400 then zero negative
    else if 0 ≤ exponent then ofQuotient negative (digits * Nat.pow 10 exponent.toNat) 1
    else ofQuotient negative digits (Nat.pow 10 (-exponent).toNat)

/-- A number as a quotient of integers, its sign left out. -/
def quotient (mantissa : Nat) (exponent : Int) : Nat × Nat :=
  if 0 ≤ exponent then (mantissa * Nat.pow 2 exponent.toNat, 1)
  else (mantissa, Nat.pow 2 (-exponent).toNat)

/-- The integer that a number is, if it is one. -/
def toInt? : Binary64 → Option Int
  | finite negative mantissa exponent =>
    let (numerator, denominator) := quotient mantissa exponent
    if numerator % denominator = 0 then
      let magnitude : Int := (numerator / denominator : Nat)
      some (if negative then -magnitude else magnitude)
    else none
  | infinite _ => none
  | notANumber => none

/-- The number nearest to an integer. -/
def ofInt (value : Int) : Binary64 := ofQuotient (value < 0) value.natAbs 1

/-- The number nearest to the sum of the magnitudes of two numbers. -/
def addMagnitudes (first second : Binary64) : Binary64 :=
  match first, second with
  | finite _ mantissa exponent, finite _ other power =>
    let (numerator, denominator) := quotient mantissa exponent
    let (part, whole) := quotient other power
    ofQuotient false (numerator * whole + part * denominator) (denominator * whole)
  | _, _ => infinite false

/-- The number nearest to the product of the magnitudes of two numbers, neither of them
zero if the other one is infinite. -/
def multiplyMagnitudes (first second : Binary64) : Binary64 :=
  match first, second with
  | finite _ mantissa exponent, finite _ other power =>
    let (numerator, denominator) := quotient mantissa exponent
    let (part, whole) := quotient other power
    ofQuotient false (numerator * part) (denominator * whole)
  | _, _ => infinite false

/-- A number with the given sign. -/
def withSign (negative : Bool) : Binary64 → Binary64
  | finite _ mantissa exponent => finite negative mantissa exponent
  | infinite _ => infinite negative
  | notANumber => notANumber

/-- Whether a number is zero, of either sign. -/
def isZero : Binary64 → Bool
  | finite _ mantissa _ => mantissa == 0
  | _ => false

end Binary64

end TreeStyle.Decimal
