import TreeStyle.Log.Conversion

/-!
# Message templates

A message may be a template, in which a percent sign starts a place for an argument:
perhaps a key in parentheses, flags, a width, a precision, and the letter that says
how the argument is written.  A width or a precision may itself be an argument.  Two
percent signs stand for one.

Arguments are taken in order, and all of them have to be used.  If a mapping with
entries is the only argument, places with keys take their arguments from it; one
place before all others may take the mapping as a whole, and nothing has to be used.
A template that does not fit its arguments makes no message.

Main statement: `fillPieces_characters` (a template without places does not change).
-/

namespace TreeStyle.Log

set_option autoImplicit false

/-! ## The pieces of a template -/

/-- A width or a precision. -/
inductive Extent where
  | number (value : Nat)
  /-- The next argument. -/
  | argument
  deriving DecidableEq, Repr

/-- A place for an argument. -/
structure Slot where
  key : Option (List Char)
  /-- The flags of the place. -/
  flags : Place
  width : Extent
  precision : Option Extent
  letter : Char
  deriving DecidableEq, Repr

/-- A piece of a template. -/
inductive Piece where
  | character (value : Char)
  | slot (slot : Slot)
  deriving DecidableEq, Repr

/-- The key up to the parenthesis that closes it, and the text after it.  Parentheses in a
key come in pairs; `depth` of them are open. -/
def readKey (depth : Nat) : List Char → Option (List Char × List Char)
  | [] => none
  | character :: rest =>
    if character = ')' ∧ depth = 0 then some ([], rest)
    else
      let depth :=
        if character = '(' then depth + 1 else if character = ')' then depth - 1 else depth
      (readKey depth rest).map fun read => (character :: read.1, read.2)

/-- The flags at the start of a text, and the text after them. -/
def readFlags (place : Place) : List Char → Place × List Char
  | '-' :: rest => readFlags { place with leftAligned := true } rest
  | '+' :: rest => readFlags { place with signed := true } rest
  | ' ' :: rest => readFlags { place with spaced := true } rest
  | '#' :: rest => readFlags { place with alternate := true } rest
  | '0' :: rest => readFlags { place with zeroPadded := true } rest
  | text => (place, text)

/-- The width or precision that a text starts with, zero if none is given, and the text
after it. -/
def readExtent : List Char → Extent × List Char
  | '*' :: rest => (.argument, rest)
  | text =>
    let digits := text.takeWhile Char.isDigit
    (.number ((Decimal.readDigits 10 digits).getD 0), text.drop digits.length)

/-- The precision that a text starts with, if there is one, and the text after it. -/
def readPrecision : List Char → Option Extent × List Char
  | '.' :: rest =>
    let (extent, rest) := readExtent rest
    (some extent, rest)
  | text => (none, text)

/-- The text without a letter for the size of an argument, which does not count. -/
def withoutSize : List Char → List Char
  | 'h' :: rest => rest
  | 'l' :: rest => rest
  | 'L' :: rest => rest
  | text => text

/-- The place that starts after a percent sign, its key already read. -/
def readKeyedSlot (key : Option (List Char)) (text : List Char) : Option (Slot × List Char) :=
  let (flags, text) := readFlags {} text
  let (width, text) := readExtent text
  let (precision, text) := readPrecision text
  match withoutSize text with
  | [] => none
  | letter :: rest => some ({ key, flags, width, precision, letter }, rest)

/-- The place that starts after a percent sign, and the text after it. -/
def readSlot : List Char → Option (Slot × List Char)
  | '(' :: text => (readKey 0 text).bind fun read => readKeyedSlot (some read.1) read.2
  | text => readKeyedSlot none text

/-- The pieces of a template. -/
def readPieces (template : List Char) : Option (List Piece) :=
  match template with
  | [] => some []
  | '%' :: '%' :: rest => (readPieces rest).map (.character '%' :: ·)
  | '%' :: text =>
    match readSlot text with
    | none => none
    | some (slot, rest) =>
      if _shorter : rest.length ≤ text.length then (readPieces rest).map (.slot slot :: ·)
      else none
  | character :: rest => (readPieces rest).map (.character character :: ·)
termination_by template.length

/-! ## Arguments -/

/-- The arguments that are left. -/
inductive Supply where
  | listed (arguments : List Value)
  /-- A mapping, and whether it can still be taken as a whole. -/
  | keyed (entries : List (Value × Value)) (untouched : Bool)

namespace Supply

/-- The arguments of a template. -/
def ofArguments : List Value → Supply
  | [.mapping (entry :: entries)] => keyed (entry :: entries) true
  | arguments => listed arguments

/-- The next argument, and those after it. -/
def next : Supply → Option (Value × Supply)
  | listed [] => none
  | listed (argument :: rest) => some (argument, listed rest)
  | keyed entries true => some (.mapping entries, keyed entries false)
  | keyed _ false => none

/-- Whether no argument is left over. -/
def isUsed : Supply → Bool
  | listed arguments => arguments.isEmpty
  | keyed _ _ => true

end Supply

/-! ## Filling places -/

/-- The size from which on a width or a precision is refused. -/
def extentLimit : Nat := Nat.pow 2 31

/-- The size that a width or a precision asks for, and the arguments after it. -/
def Extent.take (extent : Extent) (supply : Supply) : Option (Int × Supply) := do
  let (size, rest) ←
    match extent with
    | number value => some ((value : Int), supply)
    | argument => do
      let (value, rest) ← supply.next
      let size ← integerOf? value
      some (size, rest)
  if size.natAbs < extentLimit then some (size, rest) else none

/-- A place with a width, which aligns to the left if it is negative. -/
def Place.withWidth (place : Place) (width : Int) : Place :=
  { place with width := width.natAbs, leftAligned := place.leftAligned || width < 0 }

/-- What is written in a place by the next arguments, and the arguments after them.  A
negative precision counts as zero. -/
def Slot.writeNext (slot : Slot) (supply : Supply) : Option (List Char × Supply) := do
  let (width, supply) ← slot.width.take supply
  let (precision, supply) ←
    match slot.precision with
    | none => some (none, supply)
    | some extent => (extent.take supply).map fun taken => (some taken.1.toNat, taken.2)
  let (value, supply) ← supply.next
  let written ← { slot.flags.withWidth width with precision }.write slot.letter value
  some (written, supply)

/-- What is written in a place, and the arguments that are left. -/
def Slot.write (slot : Slot) (supply : Supply) : Option (List Char × Supply) :=
  match slot.key, supply with
  | none, _ => slot.writeNext supply
  | some _, .listed _ => none
  | some key, .keyed entries _ => do
    let value ← Mapping.lookup (.text (String.ofList key)) entries
    let (written, _) ← slot.writeNext (.listed [value])
    some (written, .keyed entries false)

/-- The pieces of a template with the arguments in their places. -/
def fillPieces : List Piece → Supply → Option (List Char)
  | [], supply => if supply.isUsed then some [] else none
  | .character character :: rest, supply => (fillPieces rest supply).map (character :: ·)
  | .slot slot :: rest, supply => do
    let (written, supply) ← slot.write supply
    let filled ← fillPieces rest supply
    some (written ++ filled)

/-- The message of a template and its arguments; without arguments the template is
the message. -/
def fill (template : String) (arguments : List Value) : Option String :=
  if arguments.isEmpty then some template
  else do
    let pieces ← readPieces template.toList
    let message ← fillPieces pieces (.ofArguments arguments)
    some (String.ofList message)

/-- A template without places does not change, if no argument is left over. -/
theorem fillPieces_characters (characters : List Char) {supply : Supply}
    (used : supply.isUsed = true) :
    fillPieces (characters.map .character) supply = some characters := by
  induction characters with
  | nil => simp [fillPieces, used]
  | cons character rest ih => simp [fillPieces, ih]

end TreeStyle.Log
