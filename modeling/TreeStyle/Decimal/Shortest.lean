import TreeStyle.Decimal.Binary64

/-!
# The shortest decimal of a number

A number of double precision is written with the fewest digits that read back as
the number, and of several such decimals with the nearest.  At one, two, up to
seventeen digits the two neighbours of the number on that grid are tried.

A number from 10⁻⁴ to 10¹⁶ is written positionally, with a digit after the point
even if it is zero; any other with a power of ten of at least two digits.

Main statement: `digits_read_back` (the digits that are chosen read back).
-/

namespace TreeStyle.Decimal

set_option autoImplicit false

/-- A decimal: `digits` times ten to the power of `exponent`. -/
structure Scaled where
  digits : Nat
  exponent : Int
  deriving DecidableEq, Repr

namespace Scaled

/-- The number nearest to a decimal. -/
def toBinary64 (decimal : Scaled) : Binary64 :=
  Binary64.ofDecimal false decimal.digits decimal.exponent

/-- The distance of a decimal from a quotient, as a multiple of the same unit for all
decimals of one exponent. -/
def distance (decimal : Scaled) (numerator denominator : Nat) : Nat :=
  let (scaled, unit) :=
    if 0 ≤ decimal.exponent then (numerator, denominator * Nat.pow 10 decimal.exponent.toNat)
    else (numerator * Nat.pow 10 (-decimal.exponent).toNat, denominator)
  let value := decimal.digits * unit
  if scaled ≤ value then value - scaled else scaled - value

/-- The two neighbours of a quotient among the decimals with a given exponent. -/
def neighbours (numerator denominator : Nat) (exponent : Int) : Scaled × Scaled :=
  let below :=
    if 0 ≤ exponent then numerator / (denominator * Nat.pow 10 exponent.toNat)
    else numerator * Nat.pow 10 (-exponent).toNat / denominator
  (⟨below, exponent⟩, ⟨below + 1, exponent⟩)

/-- The nearer of the neighbours of a number that read back as the number; of two
equally near ones the even one. -/
def readingBack? (value : Binary64) (numerator denominator : Nat) (exponent : Int) :
    Option Scaled :=
  let below := (neighbours numerator denominator exponent).1
  let above := (neighbours numerator denominator exponent).2
  let lower := below.distance numerator denominator
  let upper := above.distance numerator denominator
  let belowFirst := lower < upper || (lower == upper && below.digits % 2 == 0)
  (if belowFirst then [below, above] else [above, below]).find? fun decimal =>
    decimal.toBinary64 == value

end Scaled

/-- The exponent of the first digit of a positive quotient: the greatest power of ten
that is not above it. -/
def leadingExponent (numerator denominator : Nat) : Int :=
  if denominator ≤ numerator then ((toString (numerator / denominator)).length : Int) - 1
  else
    let quotient := denominator / numerator
    let length : Int := (toString quotient).length
    if quotient = Nat.pow 10 ((toString quotient).length - 1) ∧ denominator % numerator = 0 then
      1 - length
    else -length

/-- The shortest decimal that reads back as a positive number. -/
def shortest (mantissa : Nat) (exponent : Int) : Scaled :=
  let value := Binary64.finite false mantissa exponent
  let (numerator, denominator) := Binary64.quotient mantissa exponent
  let leading := leadingExponent numerator denominator
  let found := (List.range 17).findSome? fun (places : Nat) =>
    Scaled.readingBack? value numerator denominator (leading - (places : Int))
  found.getD ⟨numerator / denominator, 0⟩

/-- A decimal that was chosen reads back. -/
theorem digits_read_back {value : Binary64} {numerator denominator : Nat} {exponent : Int}
    {decimal : Scaled}
    (chosen : Scaled.readingBack? value numerator denominator exponent = some decimal) :
    decimal.toBinary64 = value := by
  simp only [Scaled.readingBack?] at chosen
  have found := List.find?_some chosen
  exact eq_of_beq found

/-! ## Writing numbers -/

/-- The digits without the zeros at their end. -/
def withoutFinalZeros (digits : List Char) : List Char :=
  (digits.reverse.dropWhile (· == '0')).reverse

/-- The text of a power of ten, with its sign and at least two digits. -/
def renderPower (exponent : Int) : String :=
  let digits := toString exponent.natAbs
  "e" ++ (if exponent < 0 then "-" else "+") ++ (if digits.length < 2 then "0" ++ digits else digits)

/-- The text of a decimal, by the place of its point. -/
def renderScaled (decimal : Scaled) : String :=
  let digits := (toString decimal.digits).toList
  let leading : Int := decimal.exponent + digits.length - 1
  let significant := withoutFinalZeros digits
  if -4 ≤ leading ∧ leading < 16 then
    if 0 ≤ leading then
      let whole := leading.toNat + 1
      let padded := significant ++ List.replicate (whole - significant.length) '0'
      let fraction := padded.drop whole
      String.ofList (padded.take whole) ++ "." ++
        (if fraction = [] then "0" else String.ofList fraction)
    else
      "0." ++ String.ofList (List.replicate ((-leading).toNat - 1) '0' ++ significant)
  else
    let fraction := significant.drop 1
    String.ofList (significant.take 1) ++
      (if fraction = [] then "" else "." ++ String.ofList fraction) ++ renderPower leading

/-- The text of a number. -/
def Binary64.render : Binary64 → String
  | .finite negative mantissa exponent =>
    (if negative then "-" else "") ++
      (if mantissa = 0 then "0.0" else renderScaled (shortest mantissa exponent))
  | .infinite negative => if negative then "-inf" else "inf"
  | .notANumber => "nan"

end TreeStyle.Decimal
