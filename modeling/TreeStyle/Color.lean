import TreeStyle.Decimal.Digits
import TreeStyle.Text.Blank
import TreeStyle.Text.Case
import TreeStyle.Text.Quoted
import TreeStyle.Text.Spelling

/-!
# Colours

A colour is one of 2²⁴ red, green and blue mixtures, one of the 256 entries of
the terminal's palette, or one of a closed set of names.  Channels and palette
entries are bounded by their types, so a colour that exists is a colour that
can be shown.

A literal is read from a text after blanks at both ends are dropped: a `#` and
six hexadecimal digits, a palette index in decimal or after `0x` in hexadecimal,
or a name without regard to case, in any of its spellings.

Main statements: `ColorName.mem_all` and `ColorName.spelling_mem_spellings`
(every name is listed, and is among its own spellings), and
`Color.byte?_eq_some_iff` (which numbers are channels and palette entries).
-/

namespace TreeStyle

set_option autoImplicit false

/-! ## Names -/

/-- The named colours.  The two canvas colours stand for the terminal's own
foreground and background. -/
inductive ColorName where
  | reset | black | darkGrey | red | darkRed | green | darkGreen | yellow | darkYellow | blue
  | darkBlue | magenta | darkMagenta | cyan | darkCyan | white | grey | fgCanvas | bgCanvas
  deriving DecidableEq, Repr

namespace ColorName

/-- All named colours. -/
def all : List ColorName :=
  [reset, black, darkGrey, red, darkRed, green, darkGreen, yellow, darkYellow, blue, darkBlue,
    magenta, darkMagenta, cyan, darkCyan, white, grey, fgCanvas, bgCanvas]

/-- The canonical spelling of a name. -/
def spelling : ColorName → String
  | reset => "reset"
  | black => "black"
  | darkGrey => "dark-grey"
  | red => "red"
  | darkRed => "dark-red"
  | green => "green"
  | darkGreen => "dark-green"
  | yellow => "yellow"
  | darkYellow => "dark-yellow"
  | blue => "blue"
  | darkBlue => "dark-blue"
  | magenta => "magenta"
  | darkMagenta => "dark-magenta"
  | cyan => "cyan"
  | darkCyan => "dark-cyan"
  | white => "white"
  | grey => "grey"
  | fgCanvas => "fg-canvas"
  | bgCanvas => "bg-canvas"

/-- The American spelling of the two greys. -/
def american? : ColorName → Option String
  | grey => some "gray"
  | darkGrey => some "dark-gray"
  | _ => none

/-- Every accepted lower-case spelling of a name. -/
def spellings (name : ColorName) : List (List Char) :=
  Text.spellings name.spelling.toList ++
    (name.american?.map fun spelling => Text.spellings spelling.toList).getD []

/-- The name with the given lower-case spelling. -/
def ofSpelling? (text : List Char) : Option ColorName :=
  all.find? fun name => name.spellings.contains text

theorem mem_all (name : ColorName) : name ∈ all := by cases name <;> decide

theorem spelling_mem_spellings (name : ColorName) : name.spelling.toList ∈ name.spellings :=
  List.mem_append_left _ (Text.mem_spellings_self _)

end ColorName

/-! ## Colours -/

/-- A colour as a stylesheet can state it. -/
inductive Color where
  /-- A mixture of red, green and blue. -/
  | rgb (red green blue : Fin 256)
  /-- An entry of the terminal's palette. -/
  | ansi (index : Fin 256)
  /-- A name. -/
  | named (name : ColorName)
  deriving DecidableEq, Repr

/-- Why a colour is refused. -/
inductive ColorError where
  /-- A `#` that is not followed by exactly six hexadecimal digits. -/
  | malformedRgb (token : String)
  /-- A `0x` that is not followed by hexadecimal digits alone. -/
  | malformedHexIndex (token : String)
  /-- A palette index above 255. -/
  | indexTooLarge (token : String)
  /-- A palette index in decimal of so many digits, more than an integer may have. -/
  | tooManyDigits (count : Nat)
  /-- A name that no colour has. -/
  | unknownName (token : String)
  /-- A channel outside of 0 to 255. -/
  | channelOutOfRange (channel : Int)
  /-- A palette index outside of 0 to 255. -/
  | indexOutOfRange (index : Int)
  deriving DecidableEq, Repr

/-- The wording of a refusal. -/
def ColorError.message : ColorError → String
  | malformedRgb token => "invalid RGB color literal " ++ Text.quote token
  | malformedHexIndex token => "invalid hex ANSI color literal " ++ Text.quote token
  | indexTooLarge token => "ANSI color index out of range (0-255): " ++ Text.quote token
  | tooManyDigits count => Decimal.unreadableMessage count
  | unknownName token => "unknown color name " ++ Text.quote token
  | channelOutOfRange channel => s!"RGB channel out of range: {channel}"
  | indexOutOfRange index => s!"ANSI color index out of range: {index}"

namespace Color

/-- A number as a channel or palette entry, if it is one. -/
def byte? (number : Int) : Option (Fin 256) :=
  if bounded : 0 ≤ number ∧ number ≤ 255 then some ⟨number.toNat, by omega⟩ else none

/-- A number is a channel or a palette entry exactly if it is one of 0 to 255. -/
theorem byte?_eq_some_iff {number : Int} {entry : Fin 256} :
    byte? number = some entry ↔ number = (entry.val : Int) := by
  constructor
  · intro read
    unfold byte? at read
    split at read
    · injection read with same
      subst same
      simp only
      omega
    · cases read
  · intro same
    have bounded : 0 ≤ number ∧ number ≤ 255 := by have := entry.isLt; omega
    rw [byte?, dif_pos bounded]
    congr 1
    apply Fin.ext
    simp only
    omega

/-- A mixture from three numbers; the first one out of range is reported. -/
def ofChannels (red green blue : Int) : Except ColorError Color :=
  match byte? red, byte? green, byte? blue with
  | some r, some g, some b => .ok (.rgb r g b)
  | none, _, _ => .error (.channelOutOfRange red)
  | _, none, _ => .error (.channelOutOfRange green)
  | _, _, none => .error (.channelOutOfRange blue)

/-- A palette entry from a number. -/
def ofIndex (index : Int) : Except ColorError Color :=
  match byte? index with
  | some entry => .ok (.ansi entry)
  | none => .error (.indexOutOfRange index)

/-! ### Reading literals -/

/-- A channel from its two hexadecimal digits. -/
def channel? (high low : Char) : Option (Fin 256) :=
  (Decimal.readDigits 16 [high, low]).bind fun value => byte? value

/-- A mixture from six hexadecimal digits. -/
def rgbOfDigits? : List Char → Option Color
  | [r₁, r₂, g₁, g₂, b₁, b₂] => do
    let red ← channel? r₁ r₂
    let green ← channel? g₁ g₂
    let blue ← channel? b₁ b₂
    return .rgb red green blue
  | _ => none

/-- The palette entry that a literal states, if it is one. -/
def entryOfLiteral (token : String) (value : Nat) : Except ColorError Color :=
  match byte? value with
  | some entry => .ok (.ansi entry)
  | none => .error (.indexTooLarge token)

/-- A literal that does not start with `#`: an index or a name. -/
def ofPlainLiteral (token : String) (text : List Char) : Except ColorError Color :=
  match Text.lower text with
  | '0' :: 'x' :: digits =>
    match Decimal.readNumeral 16 digits with
    | some value => entryOfLiteral token value
    | none => .error (.malformedHexIndex token)
  | lowered =>
    match Decimal.readNumeral 10 text with
    | some value =>
      if Decimal.digitLimit < text.length then .error (.tooManyDigits text.length)
      else entryOfLiteral token value
    | none =>
      match ColorName.ofSpelling? lowered with
      | some name => .ok (.named name)
      | none => .error (.unknownName token)

/-- The colour that a literal states. -/
def ofString (token : String) : Except ColorError Color :=
  match Text.strip token.toList with
  | '#' :: digits =>
    match rgbOfDigits? digits with
    | some color => .ok color
    | none => .error (.malformedRgb token)
  | text => ofPlainLiteral token text

/-! ### Writing literals -/

/-- The canonical literal of a colour. -/
def render : Color → String
  | rgb red green blue =>
    String.ofList ('#' ::
      (Text.hexDigits 2 red.val ++ Text.hexDigits 2 green.val ++ Text.hexDigits 2 blue.val))
  | ansi index => toString index.val
  | named name => name.spelling

end Color

end TreeStyle
