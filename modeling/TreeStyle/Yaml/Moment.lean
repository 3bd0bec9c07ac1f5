import TreeStyle.Data.Moment
import TreeStyle.Decimal.Digits

/-!
# Dates and times as scalars

A plain scalar may be a date, or a date with the time of day and possibly an offset
from universal time.  A date alone has two digits for month and day; before a time,
one digit will do.  Here only the form is judged, not whether there is such a date.
-/

namespace TreeStyle.Yaml

set_option autoImplicit false

/-! ## Parts -/

/-- The number at the start of a text, of at least `least` and at most `most` digits. -/
def readNumber (least most : Nat) (text : List Char) : Option (Nat × List Char) := do
  let digits := (text.take most).takeWhile Char.isDigit
  guard (least ≤ digits.length)
  let number ← Decimal.readNumeral 10 digits
  some (number, text.drop digits.length)

/-- The text after an expected character. -/
def readMark (mark : Char) : List Char → Option (List Char)
  | [] => none
  | character :: rest => if character = mark then some rest else none

/-- The date at the start of a text, whose month and day have at least so many digits. -/
def readDate (least : Nat) (text : List Char) : Option (Date × List Char) := do
  let (year, rest) ← readNumber 4 4 text
  let rest ← readMark '-' rest
  let (month, rest) ← readNumber least 2 rest
  let rest ← readMark '-' rest
  let (day, rest) ← readNumber least 2 rest
  some (⟨year, month, day⟩, rest)

/-- What stands between a date and a time: a letter or blanks. -/
def readDivider : List Char → Option (List Char)
  | 'T' :: rest => some rest
  | 't' :: rest => some rest
  | ' ' :: rest => some (rest.dropWhile (· == ' '))
  | _ => none

/-- The microseconds that a fraction states, digits after the sixth left out. -/
def microseconds (fraction : List Char) : Nat :=
  let digits := fraction.take 6
  (Decimal.readDigits 10 (digits ++ List.replicate (6 - digits.length) '0')).getD 0

/-- The offset that a text states, or that it states none. -/
def readOffset (text : List Char) : Option (Option Int) :=
  match text.dropWhile (· == ' ') with
  | [] => if text = [] then some none else none
  | ['Z'] => some (some 0)
  | sign :: rest => do
    guard (sign = '+' ∨ sign = '-')
    let (hours, rest) ← readNumber 1 2 rest
    let minutes ←
      match rest with
      | [] => some 0
      | ':' :: more => do
        let (minutes, rest) ← readNumber 2 2 more
        guard (rest = [])
        some minutes
      | _ => none
    let total : Int := 60 * hours + minutes
    some (some (if sign = '-' then -total else total))

/-- The time of day that a text states. -/
def readClock (text : List Char) : Option Clock := do
  let (hour, rest) ← readNumber 1 2 text
  let rest ← readMark ':' rest
  let (minute, rest) ← readNumber 2 2 rest
  let rest ← readMark ':' rest
  let (second, rest) ← readNumber 2 2 rest
  let (fraction, rest) :=
    match rest with
    | '.' :: more => (more.takeWhile Char.isDigit, more.dropWhile Char.isDigit)
    | _ => ([], rest)
  let offset ← readOffset rest
  some ⟨hour, minute, second, microseconds fraction, offset⟩

/-! ## Scalars -/

/-- The date or time that a text states, its numbers not judged. -/
def moment? (text : List Char) : Option Moment :=
  match readDate 2 text with
  | some (date, []) => some (.day date)
  | _ => do
    let (date, rest) ← readDate 1 text
    let clock ← (readDivider rest).bind readClock
    some (.time date clock)

end TreeStyle.Yaml
