/-!
# Text without control sequences

Terminals take an escape character and an opening bracket as the start of a control
sequence: digits, semicolons and question marks follow, and a letter ends it.  Where
text does not go to a terminal, these sequences are left out.  An escape character
that starts no such sequence stays.

Main statements: `withoutControls_of_not_mem` (a text without escape characters is left
alone) and `length_withoutControls_le`.
-/

namespace TreeStyle.Text

set_option autoImplicit false

/-- The escape character. -/
def escape : Char := '\x1b'

/-- Whether a character may stand between the bracket and the letter of a control sequence. -/
def isParameter (character : Char) : Bool :=
  character.isDigit || character == ';' || character == '?'

/-- The text after the control sequence that goes on with the given text, if it is one. -/
def afterControl? : List Char → Option (List Char)
  | '[' :: text =>
    match text.dropWhile isParameter with
    | [] => none
    | letter :: rest => if letter.isAlpha then some rest else none
  | _ => none

theorem length_afterControl?_lt {text rest : List Char} (found : afterControl? text = some rest) :
    rest.length < text.length := by
  unfold afterControl? at found
  split at found
  · next tail =>
    have bound := (List.dropWhile_suffix isParameter (l := tail)).length_le
    split at found
    · cases found
    · next letter after cut =>
      rw [cut, List.length_cons] at bound
      split at found
      · cases found
        rw [List.length_cons]
        omega
      · cases found
  · cases found

/-- The text without its control sequences. -/
def withoutControls : List Char → List Char
  | [] => []
  | character :: text =>
    if character = escape then
      match _found : afterControl? text with
      | some rest => withoutControls rest
      | none => character :: withoutControls text
    else character :: withoutControls text
termination_by text => text.length
decreasing_by
  · have := length_afterControl?_lt _found
    simp only [List.length_cons]
    omega
  · simp
  · simp

/-- A text without escape characters is left alone. -/
theorem withoutControls_of_not_mem {text : List Char} (plain : escape ∉ text) :
    withoutControls text = text := by
  induction text with
  | nil => rw [withoutControls]
  | cons character rest ih =>
    rw [List.mem_cons, not_or] at plain
    rw [withoutControls, if_neg (Ne.symm plain.1), ih plain.2]

/-- Leaving out control sequences makes no text longer. -/
theorem length_withoutControls_le (text : List Char) :
    (withoutControls text).length ≤ text.length := by
  fun_induction withoutControls text with
  | case1 => exact Nat.le_refl _
  | case2 text rest found ih =>
    have := length_afterControl?_lt found
    rw [List.length_cons]
    omega
  | case3 text _ ih =>
    rw [List.length_cons, List.length_cons]
    omega
  | case4 character text _ ih =>
    rw [List.length_cons, List.length_cons]
    omega

end TreeStyle.Text
