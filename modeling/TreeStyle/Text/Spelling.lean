/-!
# Spellings of a compound name

Names of colours and of attributes are written in lower case with hyphens
between their words.  Each may also be written with underscores or with no
separator at all.
-/

namespace TreeStyle.Text

set_option autoImplicit false

/-- The ways to write a hyphenated name: with hyphens, with underscores, in one word. -/
def spellings (name : List Char) : List (List Char) :=
  [name,
   name.map fun character => if character = '-' then '_' else character,
   name.filter (· ≠ '-')]

/-- The name itself is among its spellings. -/
theorem mem_spellings_self (name : List Char) : name ∈ spellings name := by
  simp [spellings]

end TreeStyle.Text
