import TreeStyle.Data.Value
import TreeStyle.Decimal.Rounded

/-!
# Arguments as they are written

An argument is written by a letter: as a text, as an integer in some base, as a number
with a point, or as a character.  Flags, a width and a precision say how it is laid
out.  Numbers are widened by zeros after their sign and base if that is asked for, and
everything else by blanks.

Main statement: `le_length_pad` (what is written has at least the width of its place).
-/

namespace TreeStyle.Log

set_option autoImplicit false

/-- How an argument is laid out. -/
structure Place where
  leftAligned : Bool := false
  signed : Bool := false
  spaced : Bool := false
  alternate : Bool := false
  zeroPadded : Bool := false
  width : Nat := 0
  precision : Option Nat := none
  deriving DecidableEq, Repr

/-! ## Widening -/

namespace Place

/-- A text widened by blanks. -/
def pad (place : Place) (text : List Char) : List Char :=
  let blanks := List.replicate (place.width - text.length) ' '
  if place.leftAligned then text ++ blanks else blanks ++ text

/-- What is written has at least the width of its place. -/
theorem le_length_pad (place : Place) (text : List Char) :
    place.width ≤ (place.pad text).length := by
  unfold pad
  split <;> simp only [List.length_append, List.length_replicate] <;> omega

/-- The sign that is written before a number. -/
def sign (place : Place) (negative : Bool) : List Char :=
  if negative then ['-'] else if place.signed then ['+'] else if place.spaced then [' '] else []

/-- A number widened by zeros after its sign and base, or by blanks. -/
def padNumber (place : Place) (sign digits : List Char) : List Char :=
  if place.zeroPadded && !place.leftAligned then
    sign ++ List.replicate (place.width - sign.length - digits.length) '0' ++ digits
  else place.pad (sign ++ digits)

end Place

/-! ## Integers -/

/-- The integer that an argument is. -/
def integerOf? : Value → Option Int
  | .integer value => some value
  | .truth value => some (if value then 1 else 0)
  | _ => none

/-- The integer that a numeric argument is without its fraction. -/
def truncated? : Value → Option Int
  | .decimal (.finite negative mantissa exponent) =>
    let (numerator, denominator) := Decimal.Binary64.quotient mantissa exponent
    let magnitude : Int := (numerator / denominator : Nat)
    some (if negative then -magnitude else magnitude)
  | value => integerOf? value

namespace Place

/-- The digits of a number in a base, at least as many as the precision asks for. -/
def digits (place : Place) (base value : Nat) : List Char :=
  let digits := Nat.toDigits base value
  List.replicate (place.precision.getD 0 - digits.length) '0' ++ digits

/-- An integer in base ten, if it does not have too many digits. -/
def decimal (place : Place) (value : Value) : Option (List Char) :=
  (truncated? value).bind fun integer =>
    if Decimal.hasTooManyDigits integer.natAbs then none
    else some (place.padNumber (place.sign (integer < 0)) (place.digits 10 integer.natAbs))

/-- An integer in a base that is a power of two, with the sign of the base if asked for. -/
def based (place : Place) (base : Nat) (letter : Char) (value : Value) : Option (List Char) :=
  (integerOf? value).map fun integer =>
    let sign := place.sign (integer < 0) ++ (if place.alternate then ['0', letter] else [])
    place.padNumber sign (place.digits base integer.natAbs)

end Place

/-! ## Numbers with a point -/

/-- How a number with a point is written. -/
inductive RealForm where
  | fixed
  | scientific
  | general
  deriving DecidableEq, Repr

/-- The number of double precision that a numeric argument is; nothing if it is too large
to be one. -/
def binaryOf? : Value → Option Decimal.Binary64
  | .decimal value => some value
  | value =>
    (integerOf? value).bind fun integer =>
      match Decimal.Binary64.ofInt integer with
      | .infinite _ => none
      | number => some number

/-- The layout of a quotient in a form, with the given precision. -/
def RealForm.layout (form : RealForm) (precision : Nat) (alternate : Bool)
    (numerator denominator : Nat) : Decimal.Layout :=
  match form with
  | fixed => Decimal.fixed precision numerator denominator
  | scientific => Decimal.scientific precision numerator denominator
  | general =>
    let layout := Decimal.general (max 1 precision) numerator denominator
    if alternate then layout else layout.shortened

/-- A number of double precision in a form. -/
def Place.binary (place : Place) (form : RealForm) (number : Decimal.Binary64) : List Char :=
  match number with
  | .finite negative mantissa exponent =>
    let (numerator, denominator) := Decimal.Binary64.quotient mantissa exponent
    let layout := form.layout (place.precision.getD 6) place.alternate numerator denominator
    place.padNumber (place.sign negative) (layout.render place.alternate)
  | .infinite negative => place.padNumber (place.sign negative) ['i', 'n', 'f']
  | .notANumber => place.padNumber (place.sign false) ['n', 'a', 'n']

/-- A numeric argument with a point. -/
def Place.real (place : Place) (form : RealForm) (value : Value) : Option (List Char) :=
  (binaryOf? value).map (place.binary form)

/-! ## Texts and characters -/

namespace Place

/-- A text cut to the precision and widened. -/
def cut (place : Place) (text : List Char) : List Char :=
  place.pad (match place.precision with
    | some length => text.take length
    | none => text)

/-- A text of an argument, if no integer in it has too many digits. -/
def written (place : Place) (value : Value) (text : List Char) : Option (List Char) :=
  if value.isUnwritable then none else some (place.cut text)

/-- A text of one character, or the character with a code. -/
def character (place : Place) (value : Value) : Option (List Char) :=
  match value with
  | .text text => if text.length = 1 then some (place.pad text.toList) else none
  | other => (integerOf? other).bind fun code =>
    if 0 ≤ code ∧ code.toNat.isValidChar then some (place.pad [Char.ofNat code.toNat]) else none

/-- An argument as the letter of its place writes it. -/
def write (place : Place) (letter : Char) (value : Value) : Option (List Char) :=
  match letter with
  | 's' => place.written value value.render.toList
  | 'r' => place.written value value.renderInner.toList
  | 'a' => place.written value (value.renderInner.toList.flatMap Text.asciiCharacter)
  | 'd' | 'i' | 'u' => place.decimal value
  | 'x' => place.based 16 'x' value
  | 'X' => (place.based 16 'x' value).map fun text => text.map Char.toUpper
  | 'o' => place.based 8 'o' value
  | 'f' => place.real .fixed value
  | 'F' => (place.real .fixed value).map fun text => text.map Char.toUpper
  | 'e' => place.real .scientific value
  | 'E' => (place.real .scientific value).map fun text => text.map Char.toUpper
  | 'g' => place.real .general value
  | 'G' => (place.real .general value).map fun text => text.map Char.toUpper
  | 'c' => place.character value
  | _ => none

end Place

end TreeStyle.Log
