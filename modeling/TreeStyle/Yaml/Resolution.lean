import TreeStyle.Data.Value
import TreeStyle.Decimal.Digits
import TreeStyle.Text.Parts
import TreeStyle.Yaml.Fault
import TreeStyle.Yaml.Moment

/-!
# What plain scalars stand for

A plain scalar may stand for nothing, for a truth value, for a number, or for a
date or time; every other one is a text.  Integers are written in base two, eight,
ten or sixteen, with underscores among the digits, or as numbers below sixty with
colons between them.  Numbers with a point are decimals, and so are the infinities
and the value that is no number.

A scalar that has one of these forms may still state nothing: a base without digits,
more digits than an integer may have, a number out of range in a date.

Two plain scalars stand for no value: one is the key under which a mapping takes in
the entries of others, the other one is an equals sign, which is a text as a key.
-/

namespace TreeStyle.Yaml

set_option autoImplicit false

/-- What a plain scalar stands for. -/
inductive Meaning where
  | value (value : Value)
  /-- The key under which a mapping takes in the entries of others. -/
  | mergeKey
  /-- The equals sign. -/
  | equalsSign
  deriving Repr

/-! ## Words -/

/-- Whether a text is a word in lower case, with a capital, or in capitals. -/
def isWord (word : String) (text : List Char) : Bool :=
  let lower := word.toList
  let upper := lower.map Char.toUpper
  text == lower || text == upper || text == upper.take 1 ++ lower.drop 1

/-- The truth value that a word states. -/
def truth? (text : List Char) : Option Bool :=
  if isWord "yes" text || isWord "true" text || isWord "on" text then some true
  else if isWord "no" text || isWord "false" text || isWord "off" text then some false
  else none

/-- Whether a text states that there is nothing. -/
def statesNothing (text : List Char) : Bool := text == [] || text == ['~'] || isWord "null" text

/-! ## Numbers -/

/-- Whether a number is negative, and its text without the sign. -/
def splitSign : List Char → Bool × List Char
  | '-' :: rest => (true, rest)
  | '+' :: rest => (false, rest)
  | text => (false, text)

/-- The value of digits among which underscores may stand, the first one not. -/
def readSpaced (digits : List Char) : Option Nat :=
  if digits.head? = some '_' then none
  else Decimal.readNumeral 10 (Decimal.withoutUnderscores digits)

/-- The value of one or two digits that is below sixty. -/
def readSixtieth (digits : List Char) : Option Nat :=
  if 2 < digits.length then none
  else (Decimal.readNumeral 10 digits).filter (· < 60)

/-- The value of digits and underscores in a base, at least one of them a digit. -/
def basedNatural? (base : Nat) (digits : List Char) : Option (Except ScalarFault Nat) :=
  if digits = [] then none
  else if Decimal.withoutUnderscores digits = [] then some (.error (.noDigits base))
  else (Decimal.readDigits base (Decimal.withoutUnderscores digits)).map .ok

/-- The value of numbers below sixty with colons between them, the first one of any size. -/
def sixtiethsNatural? : List (List Char) → Option (Except ScalarFault Nat)
  | [] => none
  | first :: rest => do
    let leading ← readSpaced first
    let sixtieths ← rest.mapM readSixtieth
    let count := (Decimal.withoutUnderscores first).length
    some (if Decimal.digitLimit < count then .error (.tooManyDigits count)
      else .ok (sixtieths.foldl (fun total digit => 60 * total + digit) leading))

/-- The natural number that a text states. -/
def natural? : List Char → Option (Except ScalarFault Nat)
  | [] => none
  | ['0'] => some (.ok 0)
  | '0' :: 'b' :: digits => basedNatural? 2 digits
  | '0' :: 'x' :: digits => basedNatural? 16 digits
  | '0' :: digits => (Decimal.readDigits 8 (Decimal.withoutUnderscores digits)).map .ok
  | text => sixtiethsNatural? (Text.partsAt ':' text)

/-- The integer that a text states. -/
def integer? (text : List Char) : Option (Except ScalarFault Int) :=
  let (negative, digits) := splitSign text
  (natural? digits).map fun read =>
    read.map fun value => if negative then -(value : Int) else value

/-- The power of ten that is written after the digits of a decimal, with its sign. -/
def readPower : List Char → Option Int
  | [] => some 0
  | letter :: sign :: digits => do
    guard (letter = 'e' ∨ letter = 'E')
    let power ← Decimal.readNumeral 10 digits
    if sign = '-' then some (-(power : Int))
    else if sign = '+' then some power
    else none
  | _ => none

/-- The number that digits before and after a point state. -/
def ofParts (negative : Bool) (whole fraction : List Char) (power : Int) :
    Option Decimal.Binary64 := do
  let fraction := Decimal.withoutUnderscores fraction
  let digits ← Decimal.readNumeral 10 (Decimal.withoutUnderscores whole ++ fraction)
  some (.ofDecimal negative digits (power - fraction.length))

/-- The part of a text before its first point, and the part after it. -/
def splitAtPoint (text : List Char) : Option (List Char × List Char) :=
  let whole := text.takeWhile (· != '.')
  match text.drop whole.length with
  | [] => none
  | _ :: fraction => some (whole, fraction)

/-- The number that digits with a point among them state. -/
def pointed? (negative signed : Bool) (text : List Char) : Option Decimal.Binary64 := do
  let (whole, after) ← splitAtPoint text
  let fraction := after.takeWhile fun character => character.isDigit || character == '_'
  let power ← readPower (after.drop fraction.length)
  guard (whole.head? ≠ some '_')
  if whole = [] then guard (!signed && (fraction.head?.map Char.isDigit).getD false)
  ofParts negative whole fraction power

/-- The value of numbers below sixty, the least one first, of which the first one here
has the given place.  Every place value has to be near to a number. -/
def placedSum (total : Decimal.Binary64) (place : Nat) :
    List Decimal.Binary64 → Except ScalarFault Decimal.Binary64
  | [] => .ok total
  | digit :: rest =>
    match Decimal.Binary64.ofInt (Nat.pow 60 place) with
    | .infinite _ => .error .placeTooHigh
    | scale => placedSum (total.addMagnitudes (digit.multiplyMagnitudes scale)) (place + 1) rest

/-- The number that numbers below sixty with colons between them state, the last one
with a point. -/
def sixtieths? (negative : Bool) (text : List Char) :
    Option (Except ScalarFault Decimal.Binary64) := do
  let (whole, fraction) ← splitAtPoint text
  guard (fraction.all fun character => character.isDigit || character == '_')
  match (Text.partsAt ':' whole).reverse with
  | [] => none
  | last :: earlier => do
    guard (earlier ≠ [])
    let _ ← readSixtieth last
    let _ ← (earlier.reverse.drop 1).mapM readSixtieth
    let least ← ofParts false last fraction 0
    let leading ← earlier.mapM fun digits => (readSpaced digits).map fun number =>
      Decimal.Binary64.ofDecimal false number 0
    some ((placedSum least 1 leading).map fun total => total.withSign negative)

/-- The number with a point that a text states, or one of the words for infinite
values. -/
def decimal? (text : List Char) : Option (Except ScalarFault Decimal.Binary64) :=
  let (negative, digits) := splitSign text
  let signed := digits.length < text.length
  if digits = ".inf".toList ∨ digits = ".Inf".toList ∨ digits = ".INF".toList then
    some (.ok (.infinite negative))
  else if text = ".nan".toList ∨ text = ".NaN".toList ∨ text = ".NAN".toList then
    some (.ok .notANumber)
  else ((pointed? negative signed digits).map .ok).or (sixtieths? negative digits)

/-! ## Scalars -/

/-- A date or time as a value, if its numbers are in range. -/
def momentValue (moment : Moment) : Except ScalarFault Value :=
  match moment.fault? with
  | none => .ok (.moment moment)
  | some fault => .error (.moment fault)

/-- The value of a plain scalar that has a form of its own. -/
def formedValue? (text : List Char) : Option (Except ScalarFault Value) :=
  ((truth? text).map fun value => .ok (.truth value)).or
    (((decimal? text).map fun read => read.map .decimal).or
      (((integer? text).map fun read => read.map .integer).or
        ((moment? text).map momentValue)))

/-- What a plain scalar stands for. -/
def meaningOf (text : List Char) : Except ScalarFault Meaning :=
  if statesNothing text then .ok (.value .nothing)
  else if text = ['<', '<'] then .ok .mergeKey
  else if text = ['='] then .ok .equalsSign
  else ((formedValue? text).getD (.ok (.text (String.ofList text)))).map .value

end TreeStyle.Yaml
