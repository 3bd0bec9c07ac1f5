import TreeStyle.Stylesheet.Parser

/-!
# Sources in memory

A source in memory is a list of code points, and surrogates may stand in it.  They start
no token and end every token, so they are at home in comments alone, and anywhere else the
first one is an error.

An error is reported with the number of bytes before it.  If a surrogate stands before an
error, there is no such number, and reading ends in a failure to encode the text.

Main statements: `SourceFailure.behind_of_characters` and `SourceFailure.ofFault_append`.
-/

namespace TreeStyle

set_option autoImplicit false

/-- Why a source in memory states no stylesheet. -/
inductive SourceFailure where
  | error (error : ParseError)
  /-- There is an error, but the text before it has no bytes. -/
  | unencodable (failure : Text.Unencodable)
  deriving DecidableEq, Repr

/-- A cause, given the code point that stands at its place. -/
def Cause.atPoint (point : Option Text.CodePoint) : Cause → Cause
  | strayCharacter character =>
    match point with
    | some (.surrogate number) => .straySurrogate number
    | _ => .strayCharacter character
  | cause => cause

theorem Cause.atPoint_of_character {point : Option Text.CodePoint}
    (character : ∀ given ∈ point, given.isSurrogate = false) (cause : Cause) :
    cause.atPoint point = cause := by
  cases cause with
  | strayCharacter stray =>
    cases point with
    | none => rfl
    | some given =>
      cases given with
      | character value => rfl
      | surrogate number => cases character _ rfl
  | _ => rfl

/-- The kind of an error does not tell what stands at its place. -/
theorem Cause.kind_atPoint (point : Option Text.CodePoint) (cause : Cause) :
    (cause.atPoint point).kind = cause.kind := by
  cases cause with
  | strayCharacter stray =>
    cases point with
    | none => rfl
    | some given => cases given <;> rfl
  | _ => rfl

namespace SourceFailure

/-- The failure for an error behind a text: the text has to be encoded. -/
def behind (passed : List Text.CodePoint) (error : ParseError) : SourceFailure :=
  match Text.unencodable? passed with
  | some failure => .unencodable failure
  | none => .error error

theorem behind_of_characters {passed : List Text.CodePoint}
    (characters : ∀ point ∈ passed, point.isSurrogate = false) (error : ParseError) :
    behind passed error = .error error := by
  rw [behind, Text.unencodable?_eq_none_iff.mpr characters]

/-- A fault against the source it was found in. -/
def ofFault (source : List Text.CodePoint) (fault : Fault) : SourceFailure :=
  let passed := source.length - fault.start.length
  behind (source.take passed)
    (ParseError.ofFault (source.map Text.CodePoint.standIn)
      { fault with cause := fault.cause.atPoint source[passed]? })

/-- The failure for a fault in front of the back of a source. -/
theorem ofFault_append (front : List Text.CodePoint) {back : List Text.CodePoint} {fault : Fault}
    (start : fault.start.length = back.length) :
    ofFault (front ++ back) fault =
      behind front (ParseError.ofFault ((front ++ back).map Text.CodePoint.standIn)
        { fault with cause := fault.cause.atPoint back.head? }) := by
  have passed : (front ++ back).length - fault.start.length = front.length := by
    rw [List.length_append, start, Nat.add_sub_cancel]
  rw [ofFault, passed, List.take_left, List.getElem?_append_right (Nat.le_refl _), Nat.sub_self,
    List.head?_eq_getElem?]

end SourceFailure

/-- The stylesheet that a source in memory states. -/
def Stylesheet.ofSource (source : List Text.CodePoint) :
    Except (Interruption SourceFailure) Stylesheet :=
  match (Lexer.ofCharacters (source.map Text.CodePoint.standIn)).readSheet [] with
  | .ok rules => .ok ⟨rules⟩
  | .error (.error fault) => .error (.error (SourceFailure.ofFault source fault))
  | .error .tokenPending => .error .tokenPending
  | .error (.refused refusal) => .error (.refused refusal)

end TreeStyle
