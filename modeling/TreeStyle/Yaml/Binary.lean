/-!
# Bytes in base sixty-four

The bytes of a binary scalar are written in base sixty-four, three bytes by four digits.
Other characters than digits are passed over.  The equals sign fills up the last four
places, and what comes after it does not count.

Main statement: `decodeBase64_quad` (four digits state three bytes).
-/

namespace TreeStyle.Yaml

set_option autoImplicit false

/-- The value of a digit in base sixty-four. -/
def base64Digit? (character : Char) : Option Nat :=
  let code := character.toNat
  if 'A' ≤ character ∧ character ≤ 'Z' then some (code - 'A'.toNat)
  else if 'a' ≤ character ∧ character ≤ 'z' then some (code - 'a'.toNat + 26)
  else if '0' ≤ character ∧ character ≤ '9' then some (code - '0'.toNat + 52)
  else if character = '+' then some 62
  else if character = '/' then some 63
  else none

/-- The bytes that digits state, of which `digits` have been read since the last three
bytes, with the bits `left` of them to come, and `fillers` equals signs after them. -/
def decodeBase64From (digits left fillers : Nat) : List Char → Option (List UInt8)
  | [] => if digits = 0 then some [] else none
  | character :: rest =>
    if character = '=' then
      if digits < 2 then decodeBase64From digits left fillers rest
      else if 4 ≤ digits + fillers + 1 then some []
      else decodeBase64From digits left (fillers + 1) rest
    else
      match base64Digit? character, digits with
      | none, _ => decodeBase64From digits left fillers rest
      | some value, 0 => decodeBase64From 1 value 0 rest
      | some value, 1 =>
        (decodeBase64From 2 (value % 16) 0 rest).map ((4 * left + value / 16).toUInt8 :: ·)
      | some value, 2 =>
        (decodeBase64From 3 (value % 4) 0 rest).map ((16 * left + value / 4).toUInt8 :: ·)
      | some value, _ => (decodeBase64From 0 0 0 rest).map ((64 * left + value).toUInt8 :: ·)

/-- The bytes that a text in base sixty-four states. -/
def decodeBase64 (text : List Char) : Option (List UInt8) := decodeBase64From 0 0 0 text

/-- Four digits state three bytes. -/
theorem decodeBase64_quad {first second third fourth : Char} {a b c d : Nat}
    (firstDigit : base64Digit? first = some a) (secondDigit : base64Digit? second = some b)
    (thirdDigit : base64Digit? third = some c) (fourthDigit : base64Digit? fourth = some d)
    (rest : List Char) :
    decodeBase64 (first :: second :: third :: fourth :: rest) =
      (decodeBase64 rest).map ([(4 * a + b / 16).toUInt8, (16 * (b % 16) + c / 4).toUInt8,
        (64 * (c % 4) + d).toUInt8] ++ ·) := by
  have noFiller {character : Char} {value : Nat} (digit : base64Digit? character = some value) :
      character ≠ '=' := by
    rintro rfl
    cases digit
  simp only [decodeBase64, decodeBase64From, noFiller firstDigit, noFiller secondDigit,
    noFiller thirdDigit, noFiller fourthDigit, firstDigit, secondDigit, thirdDigit, fourthDigit,
    if_false, Option.map_map]
  rfl

example : decodeBase64 "eA==".toList = some [120] := by decide

end TreeStyle.Yaml
