import TreeStyle.CommandLine.Request
import TreeStyle.File
import TreeStyle.Text.Escapes

/-!
# What surrounds the program

The program finds the files of a system by their paths, and it leaves some work to
libraries: they make a request of a command line, show a text, and validate the records of
base themes and the descriptions of trees.  A *host* is what does this work.  Which requests
a host makes of which command lines is not laid down; it may look at the files that a
command line names before it makes a request.

Of what a host shows, one thing is relied on (`Host.Laws`): it may leave out control
sequences, and so a text in which none can start is shown as it stands.

Main statement: `Host.standard_laws` (the standard host keeps the laws).
-/

namespace TreeStyle.CommandLine

set_option autoImplicit false

/-- The files and the directories that there are, by their paths. -/
structure Files where
  content : String → FileContent

namespace Files

/-- Whether there is a directory at a path. -/
def isDirectory (files : Files) (path : String) : Bool := (files.content path).isDirectory

/-- Whether a file can be written at a path. -/
def isWritable (files : Files) (path : String) : Bool :=
  !files.isDirectory path && files.isDirectory (Path.parent path)

end Files

/-- What the program leaves to others. -/
structure Host where
  /-- The request that a command line makes; nothing if it is not well-formed. -/
  request : Files → List String → Option Request
  /-- What is said about the use of the program. -/
  usage : String
  /-- A text as it is shown. -/
  shown : String → String
  /-- What validates the entries of base themes. -/
  records : RecordValidator
  /-- What validates the descriptions of trees. -/
  shapes : ShapeValidator

/-- What is relied on of a host. -/
structure Host.Laws (host : Host) : Prop where
  /-- A text without escape characters is shown as it stands. -/
  shown_eq {text : String} (plain : Text.escape ∉ text.toList) : host.shown text = text

/-! ## The standard host -/

/-- How the program is used. -/
def usageText : String :=
  "Usage: tss [-v LEVEL] COMMAND [ARGUMENTS]\n\n" ++
  "  check FILES...                                 report the first error in each file\n" ++
  "  format FILE [-o OUTPUT]                        write a stylesheet in canonical form\n" ++
  "  resolve STYLESHEET TREE [-t THEME] [--explain] show the style of every node\n" ++
  "  builtins [NAME]                                list the built-in stylesheets\n"

namespace Host

/-- Reads command lines without a look at the files, and shows texts without control
sequences. -/
def standard : Host where
  request _ := Request.ofArguments
  usage := usageText
  shown text := String.ofList (Text.withoutControls text.toList)
  records := .standard
  shapes := .standard

theorem standard_laws : standard.Laws where
  shown_eq := by
    intro text plain
    change String.ofList (Text.withoutControls text.toList) = text
    rw [Text.withoutControls_of_not_mem plain, String.ofList_toList]

end Host

end TreeStyle.CommandLine
