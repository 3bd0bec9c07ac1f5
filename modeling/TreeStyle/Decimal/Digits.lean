/-!
# Reading numerals

Numerals are read digit by digit, most significant first, in a base of at most
sixteen.  Only the ASCII digits count, and letters stand for ten to fifteen in
either case.

Main statements: `readDigits_append_digit` (what one more digit does to the
value) and `digit?_eq_some_lt` (a digit is below its base).
-/

namespace TreeStyle.Decimal

set_option autoImplicit false

/-- The value of a digit in a base of at most sixteen. -/
def digit? (base : Nat) (character : Char) : Option Nat :=
  let code := character.toNat
  let value :=
    if 0x30 ≤ code ∧ code ≤ 0x39 then some (code - 0x30)
    else if 0x61 ≤ code ∧ code ≤ 0x66 then some (code - 0x57)
    else if 0x41 ≤ code ∧ code ≤ 0x46 then some (code - 0x37)
    else none
  value.filter (· < base)

/-- The value of a run of digits; nothing if one of the characters is no digit. -/
def readDigits (base : Nat) (characters : List Char) : Option Nat :=
  characters.foldlM (fun value character => (digit? base character).map (base * value + ·)) 0

/-- The value of a run of one or more digits. -/
def readNumeral (base : Nat) (characters : List Char) : Option Nat :=
  if characters = [] then none else readDigits base characters

/-- The digits of a run without the underscores between them. -/
def withoutUnderscores (characters : List Char) : List Char := characters.filter (· ≠ '_')

/-! ## Numerals that are too long -/

/-- The greatest number of digits that an integer may have, to be read or written in
base ten. -/
def digitLimit : Nat := 4300

/-- Whether a number has more digits than an integer may have. -/
def hasTooManyDigits (value : Nat) : Bool := Nat.pow 10 digitLimit ≤ value

/-- The wording for a numeral with too many digits. -/
def unreadableMessage (count : Nat) : String :=
  s!"Exceeds the limit ({digitLimit} digits) for integer string conversion: value has {count} " ++
    "digits; use sys.set_int_max_str_digits() to increase the limit"

/-- The wording for an integer that is too long to be written. -/
def unwritableMessage : String :=
  s!"Exceeds the limit ({digitLimit} digits) for integer string conversion; " ++
    "use sys.set_int_max_str_digits() to increase the limit"

/-! ## Laws -/

/-- A digit is below its base. -/
theorem digit?_eq_some_lt {base : Nat} {character : Char} {value : Nat}
    (read : digit? base character = some value) : value < base := by
  simp only [digit?, Option.filter_eq_some_iff, decide_eq_true_eq] at read
  exact read.2

theorem readDigits_nil (base : Nat) : readDigits base [] = some 0 := rfl

/-- One more digit multiplies the value by the base and adds the digit. -/
theorem readDigits_append_digit (base : Nat) (characters : List Char) (character : Char) :
    readDigits base (characters ++ [character]) =
      (readDigits base characters).bind fun value =>
        (digit? base character).map (base * value + ·) := by
  simp [readDigits, List.foldlM_append]

end TreeStyle.Decimal
