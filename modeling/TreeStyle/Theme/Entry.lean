import TreeStyle.Data.Validation
import TreeStyle.Theme
import TreeStyle.Yaml.Fault

/-!
# Base themes from structured data

A base theme is a mapping from the names of highlight groups to entries, and an
entry is a record of colours and attributes.  They are read from the texts of their
values, and a list of attributes is read as if it were written with bars.  An entry
that is vacant specifies nothing.

A validator reads the texts to check the fields of an entry and keeps them, and the
style of the entry is read off the texts that were kept.

The first entry that fails is reported: its name is judged before its content,
and of its content every field.
-/

namespace TreeStyle

set_option autoImplicit false

/-- Why data is no base theme. -/
inductive ThemeError where
  | fileMissing (name : String)
  /-- The system does not let the file be read. -/
  | fileRefused (reason : String)
  | undecodable (path : String) (fault : String)
  | malformed (origin : String)
  /-- A scalar that states nothing. -/
  | unreadable (fault : Yaml.ScalarFault)
  | notMapping (origin : String)
  | unknownGroup (name : String)
  /-- A name without a text, with the wording for it. -/
  | namelessGroup (reason : String)
  | invalidEntry (name : Value) (errors : List FieldError)
  /-- A text that was kept is refused when it is read again. -/
  | refusedText (reason : String)
  deriving Repr

namespace ThemeError

/-- The wording of an error, the report on an entry left out. -/
def message : ThemeError → String
  | fileMissing name => "Theme file not found: " ++ name
  | fileRefused reason => reason
  | undecodable path fault => "Theme file " ++ path ++ " is not valid UTF-8: " ++ fault
  | malformed origin => "Failed to parse YAML in " ++ origin
  | unreadable fault => fault.message
  | notMapping origin => origin ++ " must contain a mapping at the root level"
  | unknownGroup name => "Invalid base theme: " ++ Highlight.unknownMessage name
  | namelessGroup reason => "Invalid base theme: " ++ reason
  | invalidEntry name _ => "Invalid base theme entry " ++ name.renderInner
  | refusedText reason => reason

/-- The fields that fail. -/
def fieldErrors : ThemeError → List FieldError
  | invalidEntry _ errors => errors
  | _ => []

/-- The wording of an error with the first line of the report on an entry. -/
def headline (error : ThemeError) : String :=
  match error with
  | invalidEntry _ errors => error.message ++ ": " ++ FieldError.summary "ThemeEntrySchema" errors
  | _ => error.message

end ThemeError

namespace Theme

/-! ## Entries -/

/-- A colour from its text. -/
def parseColor (text : String) : Except String Color :=
  (Color.ofString text).mapError ColorError.message

/-- A set of attributes from its text. -/
def parseAttributes (text : String) : Except String AttributeSet :=
  (AttributeSet.ofString text).mapError AttributeError.message

/-- The text of a value that lists attributes. -/
def attributesText : Value → Except String String
  | .list items => (items.mapM Value.text?).map ("|".intercalate ·)
  | value => value.text?

/-- The text of a value, kept if it can be read; of nothing, none is kept. -/
def keepText {Field : Type} (write : Value → Except String String)
    (parse : String → Except String Field) : Value → Except String (Option String)
  | .nothing => .ok none
  | value => do
    let text ← write value
    let _ ← parse text
    return some text

/-- A field for a colour. -/
def colorField (name : String) : TextField := ⟨name, keepText Value.text? parseColor⟩

/-- The field for attributes. -/
def attributesField : TextField := ⟨"attr", keepText attributesText parseAttributes⟩

/-- The fields of an entry. -/
def entryFields : List TextField := [colorField "fg", colorField "bg", attributesField]

/-- The partial style that the texts of an entry state. -/
def styleOfTexts (texts : String → Option String) : Except String PartialStyle := do
  let fg ← (texts "fg").mapM parseColor
  let bg ← (texts "bg").mapM parseColor
  let attrs ← (texts "attr").mapM parseAttributes
  return { fg, bg, attrs }

/-- The partial style of the entry under a name. -/
def readEntry (validator : RecordValidator) (name entry : Value) :
    Except ThemeError PartialStyle := do
  let content := if entry.isVacant then .mapping [] else entry
  let texts ← (validator.validate entryFields content).mapError (.invalidEntry name)
  (styleOfTexts texts).mapError .refusedText

/-! ## Themes -/

/-- The group with the name that a value states. -/
def groupOf (name : Value) : Except ThemeError Highlight :=
  match name.text? with
  | .error reason => .error (.namelessGroup reason)
  | .ok text =>
    match Highlight.ofName? text with
    | some group => .ok group
    | none => .error (.unknownGroup text)

/-- A base theme with one more entry. -/
def readNamedEntry (validator : RecordValidator) (theme : Theme) (entry : Value × Value) :
    Except ThemeError Theme := do
  let group ← groupOf entry.1
  let style ← readEntry validator entry.1 entry.2
  return theme.insert group style

/-- The base theme that a mapping states. -/
def ofMapping (validator : RecordValidator) (entries : List (Value × Value)) :
    Except ThemeError Theme :=
  entries.foldlM (readNamedEntry validator) {}

/-- The base theme that a document states; nothing is a theme without entries. -/
def ofDocument (validator : RecordValidator) (origin : String) (document : Value) :
    Except ThemeError Theme :=
  match document with
  | .nothing => .ok {}
  | .mapping entries => ofMapping validator entries
  | _ => .error (.notMapping origin)

end Theme

end TreeStyle
