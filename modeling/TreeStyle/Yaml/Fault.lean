import TreeStyle.Data.Moment
import TreeStyle.Decimal.Digits

/-!
# Why a document states no value

A document may be malformed.  It may also be well-formed and hold a scalar that has
the form of a number, of a moment or of a character, but states none.

Where a document is cut into tokens, it is a matter of its own that the text ends inside
of a token, since then more of the text may still be to come.

Faults lie at a depth, which is the number of collections around them.  Of two faults
the one that lies less deep is reported, and of two at one depth the first one.
-/

namespace TreeStyle.Yaml

set_option autoImplicit false

/-! ## Faults -/

/-- Why a scalar states nothing, although it has the form of something. -/
inductive ScalarFault where
  /-- A date or time with a number out of range. -/
  | moment (fault : MomentFault)
  /-- The mark of a base without digits after it. -/
  | noDigits (base : Nat)
  /-- An integer in base ten with so many digits. -/
  | tooManyDigits (count : Nat)
  /-- A number below sixty with a place value that no number of double precision has. -/
  | placeTooHigh
  /-- The code of an escape that is above those of the characters. -/
  | noCharacter
  /-- The code of an escape that takes more than 31 bits. -/
  | codeTooLarge
  deriving DecidableEq, Repr

/-- The wording of a fault. -/
def ScalarFault.message : ScalarFault → String
  | moment fault => fault.message
  | noDigits base => s!"invalid literal for int() with base {base}: ''"
  | tooManyDigits count => Decimal.unreadableMessage count
  | placeTooHigh => "int too large to convert to float"
  | noCharacter => "chr() arg not in range(0x110000)"
  | codeTooLarge => "Python int too large to convert to C int"

/-- Whether a number is too large for the arithmetic it is needed in. -/
def ScalarFault.isOverflow : ScalarFault → Bool
  | placeTooHigh => true
  | codeTooLarge => true
  | _ => false

/-- Why a document states no value. -/
inductive Fault where
  | malformed
  | unreadable (fault : ScalarFault)
  deriving DecidableEq, Repr

/-- Why a token cannot be read. -/
inductive TokenFault where
  | malformed
  /-- The text ends inside of the token. -/
  | unfinished
  | unreadable (fault : ScalarFault)
  deriving DecidableEq, Repr

/-- A part of a token; the token is malformed if there is none. -/
def orMalformed {Part : Type} : Option Part → Except TokenFault Part
  | some part => .ok part
  | none => .error .malformed

/-! ## Faults at their depth -/

/-- A fault and the number of collections around it. -/
structure DeepFault where
  depth : Nat
  fault : Fault
  deriving DecidableEq, Repr

/-- What a part of a document states, or its fault. -/
abbrev Reading (Part : Type) : Type := Except DeepFault Part

namespace Reading

variable {First Second Part : Type}

/-- A fault with no collection around it. -/
def fail (fault : Fault) : Reading Part := .error ⟨0, fault⟩

/-- What a part of a collection states. -/
def deepened (part : Reading Part) : Reading Part :=
  part.mapError fun error => { error with depth := error.depth + 1 }

/-- What two parts state, the first one in front.  Of two faults the one that lies less
deep counts. -/
def both (first : Reading First) (second : Reading Second) : Reading (First × Second) :=
  match first, second with
  | .ok value, .ok other => .ok (value, other)
  | .ok _, .error error => .error error
  | .error error, .ok _ => .error error
  | .error error, .error later => .error (if later.depth < error.depth then later else error)

end Reading

end TreeStyle.Yaml
