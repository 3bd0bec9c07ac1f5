import TreeStyle.Decimal.Digits
import TreeStyle.Text.Blank

/-!
# Integers in texts

Where an integer is due, a text of one will do.  White space around it counts for
nothing, and neither does a plus sign.  Zeros in front are dropped, with the
underscores among them, on either side of a minus sign.  A point at the end may have
zeros after it, and single underscores may stand between digits.

What is left has to be a numeral with perhaps a minus sign, without a zero in front
of other digits.  A numeral that is too long is reported as such, whatever follows
its digits.
-/

namespace TreeStyle.Decimal

set_option autoImplicit false

/-- Why a text states no integer. -/
inductive IntegerFault where
  | malformed
  | tooLong
  deriving DecidableEq, Repr

/-! ## Dropping what does not count -/

/-- What is left of a text after leading zeros, of which `last` is the one before the
text.  Before a point and at the end the last one is kept. -/
def afterZeros (last : Char) : List Char → Option (List Char)
  | [] => some [last]
  | character :: rest =>
    if character = '0' ∨ character = '_' then afterZeros character rest
    else if character.isDigit ∨ character = '-' then some (character :: rest)
    else if character = '.' then some (last :: character :: rest)
    else none

/-- A text without its leading zeros; nothing if it starts like no integer. -/
def withoutLeadingZeros : List Char → Option (List Char)
  | [] => none
  | character :: rest =>
    if character = '0' then afterZeros '0' rest
    else if character.isDigit ∨ character = '-' then some (character :: rest)
    else none

/-- A text without a plus sign and without the leading zeros after its sign. -/
def withoutSignAndZeros : List Char → Option (List Char)
  | '+' :: text => if text.head? = some '-' then none else withoutLeadingZeros text
  | '-' :: text => (withoutLeadingZeros text).map ('-' :: ·)
  | text => withoutLeadingZeros text

/-- A text without its first point and the zeros after it, if nothing else follows. -/
def withoutFraction (text : List Char) : List Char :=
  let whole := text.takeWhile (· != '.')
  if (text.drop (whole.length + 1)).all (· == '0') then whole else text

/-- Whether underscores stand in a text one by one, and neither first nor last. -/
def isGrouped (text : List Char) : Bool :=
  text.head? != some '_' && text.getLast? != some '_' &&
    (text.zip text.tail).all fun pair => pair.1 != '_' || pair.2 != '_'

/-- A text without the underscores between its digits. -/
def withoutGrouping (text : List Char) : List Char :=
  if isGrouped text then withoutUnderscores text else text

/-! ## Reading -/

/-- The value of a numeral that is not too long and has no zero in front of other digits. -/
def readStrict (text : List Char) : Except IntegerFault Nat :=
  let digits := text.takeWhile Char.isDigit
  if digits.head? = some '0' ∧ digits.length ≠ 1 then .error .malformed
  else if digitLimit < digits.length then .error .tooLong
  else
    match readNumeral 10 text with
    | some value => .ok value
    | none => .error .malformed

/-- The value of a numeral with perhaps a minus sign. -/
def readSigned : List Char → Except IntegerFault Int
  | '-' :: text => (readStrict text).map fun value => -(value : Int)
  | text => (readStrict text).map fun value => (value : Int)

/-- The integer that a text states. -/
def readInteger (text : List Char) : Except IntegerFault Int :=
  match withoutSignAndZeros (Text.trim Text.isWhiteSpace text) with
  | some numeral => readSigned (withoutGrouping (withoutFraction numeral))
  | none => .error .malformed

end TreeStyle.Decimal
