import TreeStyle.Decimal.Shortest

/-!
# Decimals of a chosen length

A quotient can be written with a chosen number of digits after the point, or with a
chosen number of digits in all, the first of them before the point, and a power of
ten.  The last digit is rounded to the nearest one, and of two equally near ones to
the even one.

With a chosen number of digits in all, the power of ten may also be left out: numbers
are then written positionally from 10⁻⁴ on, as long as no digit before the point is
left unwritten.
-/

namespace TreeStyle.Decimal

set_option autoImplicit false

/-- A decimal as it is laid out. -/
structure Layout where
  whole : List Char
  fraction : List Char
  power : Option Int := none
  deriving DecidableEq, Repr

namespace Layout

/-- The text of a decimal.  A point without digits after it is only written if `pointed`. -/
def render (pointed : Bool) (layout : Layout) : List Char :=
  layout.whole ++ (if layout.fraction = [] ∧ pointed = false then [] else '.' :: layout.fraction) ++
    (layout.power.map fun power => (renderPower power).toList).getD []

/-- A decimal without the zeros at the end of its fraction. -/
def shortened (layout : Layout) : Layout :=
  { layout with fraction := withoutFinalZeros layout.fraction }

end Layout

/-- The digits of a number, with zeros in front if they are fewer than `count`. -/
def digitsOfLength (count number : Nat) : List Char :=
  let digits := Nat.toDigits 10 number
  List.replicate (count - digits.length) '0' ++ digits

/-! ## A number of digits after the point -/

/-- A quotient with so many digits after the point. -/
def fixed (places numerator denominator : Nat) : Layout :=
  let scaled := roundHalfEven (numerator * Nat.pow 10 places) denominator
  let digits := digitsOfLength (places + 1) scaled
  { whole := digits.take (digits.length - places), fraction := digits.drop (digits.length - places) }

/-! ## A number of digits in all -/

/-- The first `count` digits of a quotient, rounded, as one number, and the power of ten
of the first of them. -/
def significant (count numerator denominator : Nat) : Nat × Int :=
  if numerator = 0 then (0, 0)
  else
    let leading := leadingExponent numerator denominator
    let last := leading - count + 1
    let rounded :=
      if 0 ≤ last then roundHalfEven numerator (denominator * Nat.pow 10 last.toNat)
      else roundHalfEven (numerator * Nat.pow 10 (-last).toNat) denominator
    if rounded = Nat.pow 10 count then (Nat.pow 10 (count - 1), leading + 1) else (rounded, leading)

/-- A quotient with one digit before the point, so many after it, and a power of ten. -/
def scientific (places numerator denominator : Nat) : Layout :=
  let (number, leading) := significant (places + 1) numerator denominator
  let digits := digitsOfLength (places + 1) number
  { whole := digits.take 1, fraction := digits.drop 1, power := some leading }

/-- A quotient with so many digits in all, with a power of ten only if it is needed. -/
def general (count numerator denominator : Nat) : Layout :=
  let leading := (significant count numerator denominator).2
  if -4 ≤ leading ∧ leading < count then
    fixed ((count : Int) - 1 - leading).toNat numerator denominator
  else scientific (count - 1) numerator denominator

end TreeStyle.Decimal
