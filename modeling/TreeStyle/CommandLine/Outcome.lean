import TreeStyle.Cascade
import TreeStyle.CommandLine.Host
import TreeStyle.Stylesheet.Builtin
import TreeStyle.Theme.Standard

/-!
# Outcomes of requests

A request is carried out on a table of files.  Its outcome is an exit status, the messages
that are put out, and the files that are written.  Success has status zero, a failure
status one, and a command line that is not well-formed status two.

A message is a text for the output or for the error stream, which the host shows, or a line
of the log, which goes to the error stream as it is.

Some failures end a request at once and without a report: a scalar that states nothing, a
file that the system does not let be read, and a file that would have to be written into a
directory that is not there.  What would have come after them does not come.

Main statements: `Outcome.sequence_append` (outcomes follow one another) and
`Outcome.sequence_of_ended` (nothing comes after an outcome that ends the request).
-/

namespace TreeStyle.CommandLine

set_option autoImplicit false

/-! ## Messages -/

/-- The streams that a program writes to. -/
inductive Stream where
  | output | errors
  deriving DecidableEq, Repr

/-- Something that is put out. -/
inductive Message where
  /-- A text for the output stream. -/
  | output (text : String)
  /-- A text for the error stream. -/
  | error (text : String)
  /-- A line of the log. -/
  | event (line : String)
  deriving DecidableEq, Repr

namespace Message

/-- The stream that a message goes to. -/
def stream : Message → Stream
  | output _ => .output
  | error _ => .errors
  | event _ => .errors

/-- What a host writes for a message. -/
def writtenBy (host : Host) : Message → String
  | output text => host.shown text
  | error text => host.shown text
  | event line => line ++ "\n"

end Message

/-- What stands on a stream after some messages. -/
def Host.transcript (host : Host) (stream : Stream) (messages : List Message) : String :=
  String.join ((messages.filter fun message => message.stream == stream).map
    (Message.writtenBy host))

/-! ## Outcomes -/

/-- What a request leads to. -/
structure Outcome where
  exit : Nat := 0
  messages : List Message := []
  /-- The files that are written, with their texts. -/
  written : List (String × String) := []
  /-- Whether the request ends here, whatever was still to be done. -/
  ended : Bool := false
  deriving DecidableEq, Repr

namespace Outcome

/-- One outcome after the other, unless the first one ends the request; the greater status
counts. -/
def andThen (first second : Outcome) : Outcome :=
  if first.ended then first
  else {
    exit := max first.exit second.exit
    messages := first.messages ++ second.messages
    written := first.written ++ second.written
    ended := second.ended }

/-- Outcomes one after the other. -/
def sequence (outcomes : List Outcome) : Outcome := outcomes.foldr andThen {}

/-- A text for the output stream. -/
def ofText (text : String) : Outcome := { messages := [.output text] }

/-- A line of output. -/
def ofLine (line : String) : Outcome := ofText (line ++ "\n")

/-- A failure with a line for the error stream. -/
def ofFailure (line : String) : Outcome := { exit := 1, messages := [.error (line ++ "\n")] }

/-- A failure without a report, which ends the request. -/
def silentFailure : Outcome := { exit := 1, ended := true }

/-- The events that a verbosity shows. -/
def ofEvents (verbosity : Int) (events : List Log.Event) : Outcome :=
  { messages := (Log.lines verbosity events).map .event }

/-! ### Outcomes one after the other -/

theorem empty_andThen (outcome : Outcome) : andThen {} outcome = outcome := by
  simp [andThen]

theorem andThen_assoc (first second third : Outcome) :
    (first.andThen second).andThen third = first.andThen (second.andThen third) := by
  cases early : first.ended <;> cases late : second.ended <;>
    simp [andThen, early, late, Nat.max_assoc]

theorem sequence_cons (outcome : Outcome) (rest : List Outcome) :
    sequence (outcome :: rest) = outcome.andThen (sequence rest) := rfl

/-- Outcomes follow one another. -/
theorem sequence_append (first second : List Outcome) :
    sequence (first ++ second) = (sequence first).andThen (sequence second) := by
  induction first with
  | nil => exact (empty_andThen _).symm
  | cons outcome rest ih =>
    rw [List.cons_append, sequence_cons, sequence_cons, ih, andThen_assoc]

/-- Nothing comes after an outcome that ends the request. -/
theorem sequence_of_ended (before : List Outcome) {last : Outcome} (ended : last.ended = true)
    (after : List Outcome) :
    sequence (before ++ last :: after) = (sequence before).andThen last := by
  rw [sequence_append, sequence_cons]
  congr 1
  simp [andThen, ended]

end Outcome

/-! ## Stylesheet files -/

/-- What follows from an error of a stylesheet file. -/
def Outcome.ofFileError (path : String) : StylesheetFileError → Outcome
  | .missing name => ofFailure ("Error: " ++ fileMissingMessage name)
  | .invalid error =>
    ofFailure (path ++ s!":{error.position.line}:{error.position.column}: error[" ++
      error.kind.name ++ "]: " ++ error.message)
  | .refused _ => silentFailure

/-- Reads a stylesheet file and goes on with the stylesheet, or fails. -/
def withStylesheet (verbosity : Int) (files : Files) (path : String)
    (next : Stylesheet → Outcome) : Outcome :=
  let (read, events) := Stylesheet.ofFile path (files.content path)
  (Outcome.ofEvents verbosity events).andThen
    (match read with
    | .ok sheet => next sheet
    | .error error => .ofFileError path error)

/-! ## Commands -/

/-- The report on one file. -/
def checkFile (verbosity : Int) (files : Files) (path : String) : Outcome :=
  withStylesheet verbosity files path fun sheet =>
    Outcome.ofLine (path ++ s!": ok ({sheet.rules.length} rules)")

/-- The reports on files, one by one. -/
def checkFiles (verbosity : Int) (files : Files) (paths : List String) : Outcome :=
  Outcome.sequence (paths.map (checkFile verbosity files))

/-- A stylesheet in canonical form, as output or in a file. -/
def formatFile (verbosity : Int) (files : Files) (path : String) (target : Option String) :
    Outcome :=
  withStylesheet verbosity files path fun sheet =>
    match target with
    | none => Outcome.ofText sheet.render
    | some target =>
      if files.isWritable target then
        { Outcome.ofLine ("Stylesheet written to " ++ target) with
          written := [(target, sheet.render)] }
      else Outcome.silentFailure

/-- Reads the base theme in a file, or takes the standard one, and goes on with it, or
fails. -/
def withTheme (host : Host) (files : Files) (path : Option String) (next : Theme → Outcome) :
    Outcome :=
  match path with
  | none => next Theme.standard
  | some path =>
    match Theme.ofFile host.records path (files.content path) with
    | .ok theme => next theme
    | .error (.fileRefused _) => .silentFailure
    | .error (.unreadable _) => .silentFailure
    | .error (.refusedText _) => .silentFailure
    | .error error => .ofFailure ("Error: " ++ error.headline)

/-- Reads a tree file and goes on with the tree, or fails. -/
def withTree (host : Host) (files : Files) (path : String) (next : Construction → Outcome) :
    Outcome :=
  match Forest.ofFile host.shapes path (files.content path) with
  | .ok tree => next tree
  | .error (.fileRefused _) => .silentFailure
  | .error (.unreadable _) => .silentFailure
  | .error error => .ofFailure ("Error: " ++ error.headline)

/-- The lines about a node: its kind and style, and the rules that match it if they are
given. -/
def nodeLines {Node : Type} (view : TreeView Node) (styled : StyledNode Node)
    (rules : List (Nat × Rule)) : List String :=
  let indent := String.join (List.replicate styled.distance "  ")
  (indent ++ view.kind styled.node ++ ": " ++ styled.resolution.style.render) ::
    rules.map fun entry => indent ++ s!"  <- rule {entry.1}: " ++ entry.2.render

/-- The styles of all nodes under a root. -/
def showStyles {Node : Type} (verbosity : Int) (view : TreeView Node) (sheet : Stylesheet)
    (theme : Theme) (explain : Bool) (root : Node) : Outcome :=
  Outcome.sequence ((resolveTree view sheet theme root).map fun styled =>
    let rules := if explain then matchingRules view sheet styled.node else []
    (Outcome.ofEvents verbosity styled.resolution.events).andThen
      (Outcome.sequence ((nodeLines view styled rules).map Outcome.ofLine)))

/-- The styles of all nodes of the tree that a file describes. -/
def resolveFiles (host : Host) (verbosity : Int) (files : Files) (sheetPath treePath : String)
    (themePath : Option String) (explain : Bool) : Outcome :=
  withStylesheet verbosity files sheetPath fun sheet =>
    withTheme host files themePath fun theme =>
      withTree host files treePath fun tree =>
        showStyles verbosity tree.forest.view sheet theme explain tree.label

/-- The line about a built-in stylesheet. -/
def listBuiltin (verbosity : Int) (entry : String × String) : Outcome :=
  match Stylesheet.ofString entry.2 with
  | .ok sheet =>
    (Outcome.ofEvents verbosity [Log.Event.ofParsed sheet]).andThen
      (Outcome.ofLine (entry.1 ++ s!" ({sheet.rules.length} rules)"))
  | .error error => .ofFileError entry.1 (.invalid error)

/-- The built-in stylesheets, or the source of one of them. -/
def showBuiltins (verbosity : Int) : Option String → Outcome
  | none => Outcome.sequence (Builtin.sources.map (listBuiltin verbosity))
  | some name =>
    match Builtin.source? name with
    | some source => Outcome.ofText source
    | none =>
      Outcome.ofFailure ("Error: Unknown built-in stylesheet '" ++ name ++ "'. Available: " ++
        ", ".intercalate Builtin.names)

/-- What a request leads to. -/
def Request.perform (host : Host) (files : Files) (request : Request) : Outcome :=
  match request.command with
  | .check paths => checkFiles request.verbosity files paths
  | .format path target => formatFile request.verbosity files path target
  | .resolve sheet tree theme explain =>
    resolveFiles host request.verbosity files sheet tree theme explain
  | .builtins name => showBuiltins request.verbosity name
  | .help => .ofText host.usage

/-- What a command line leads to. -/
def Host.run (host : Host) (files : Files) (arguments : List String) : Outcome :=
  match host.request files arguments with
  | some request => request.perform host files
  | none => { exit := 2, messages := [.error host.usage] }

end TreeStyle.CommandLine
