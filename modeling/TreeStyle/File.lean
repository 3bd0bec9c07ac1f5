import TreeStyle.Log
import TreeStyle.Path
import TreeStyle.Stylesheet.Reading
import TreeStyle.Text.Portions
import TreeStyle.Theme.Entry
import TreeStyle.Tree.Description
import TreeStyle.Yaml.Document

/-!
# Reading files

Stylesheets, base themes and trees may be kept in files.  A file is given by its
name and by what the system answers when it is read: its bytes, that nothing is there, or
that it is not to be read.  The bytes are read as UTF-8, and every line end as a line
feed.  Stylesheets and base themes are decoded before they are read, and trees while
they are read.

That nothing is there is looked up before a file is read, and so it has a report of its own.
When the system refuses to read what is there, its own reason is all that is known.
-/

namespace TreeStyle

set_option autoImplicit false

/-- What the system answers when a file is read. -/
inductive FileContent where
  | missing
  | bytes (content : List UInt8)
  /-- Something that is not to be read, such as a directory, and why. -/
  | refused (isDirectory : Bool) (reason : String)
  deriving DecidableEq, Repr

namespace FileContent

/-- Whether the system refuses to read a file. -/
def isRefused : FileContent → Bool
  | refused _ _ => true
  | _ => false

/-- Whether a directory stands in the place of a file. -/
def isDirectory : FileContent → Bool
  | refused isDirectory _ => isDirectory
  | _ => false

end FileContent

/-- The text of a file with line feeds as line ends. -/
def readText (bytes : List UInt8) : Except Text.Utf8.Fault (List Char) :=
  (Text.Utf8.decode bytes).map Text.withLineFeeds

/-- The wording for a file that does not exist. -/
def fileMissingMessage (name : String) : String := "File not found: " ++ name

/-! ## Stylesheets -/

/-- Why a file is no stylesheet. -/
inductive StylesheetFileError where
  | missing (name : String)
  | invalid (error : ParseError)
  /-- The system does not let the file be read. -/
  | refused (reason : String)
  deriving DecidableEq

/-- The stylesheet in a file, and the events of reading it. -/
def Stylesheet.ofFile (name : String) (content : FileContent) :
    Except StylesheetFileError Stylesheet × List Log.Event :=
  match content with
  | .missing => (.error (.missing name), [])
  | .refused _ reason => (.error (.refused reason), [])
  | .bytes bytes =>
    match readText bytes with
    | .error fault => (.error (.invalid (ParseError.ofUndecodable fault)), [])
    | .ok source =>
      let loading := Log.Event.loading (Path.normalise name)
      match Stylesheet.ofCharacters source with
      | .ok sheet => (.ok sheet, [loading, Log.Event.ofParsed sheet])
      | .error error => (.error (.invalid error), [loading])

/-! ## Base themes -/

/-- The base theme in a file. -/
def Theme.ofFile (validator : RecordValidator) (name : String) (content : FileContent) :
    Except ThemeError Theme :=
  match content with
  | .missing => .error (.fileMissing name)
  | .refused _ reason => .error (.fileRefused reason)
  | .bytes bytes =>
    match readText bytes with
    | .error fault => .error (.undecodable (Path.normalise name) fault.message)
    | .ok text =>
      match Yaml.read text with
      | .error .malformed => .error (.malformed (Path.normalise name))
      | .error (.unreadable fault) => .error (.unreadable fault)
      | .ok document => Theme.ofDocument validator (Path.normalise name) document

/-! ## Trees -/

/-- The error of a tree whose document has a fault. -/
def TreeError.ofFault : Yaml.Fault → TreeError
  | .malformed => .malformed
  | .unreadable fault => .unreadable fault

/-- The tree that a file describes.  A file that cannot be decoded to its end may show
a fault of its document before. -/
def Forest.ofFile (validator : ShapeValidator) (name : String) (content : FileContent) :
    Except TreeError Construction :=
  match content with
  | .missing => .error (.fileMissing name)
  | .refused _ reason => .error (.fileRefused reason)
  | .bytes bytes =>
    match Text.portionsOf bytes with
    | (portions, none) =>
      match Yaml.readPortions portions with
      | .error fault => .error (.ofFault fault)
      | .ok document => Forest.ofDocument validator document
    | (portions, some broken) =>
      match Yaml.faultOfPortions? portions with
      | some fault => .error (.ofFault fault)
      | none => .error (.undecodable (Path.normalise name) broken.message)

end TreeStyle
