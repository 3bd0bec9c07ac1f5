import TreeStyle.CommandLine.Arguments
import TreeStyle.Decimal.IntegerText
import TreeStyle.Path

/-!
# Requests

A command line asks to check stylesheets, to format one, to resolve the styles of a
tree, or to show the built-in stylesheets.  A verbosity from zero to three may stand
before the command.
-/

namespace TreeStyle.CommandLine

set_option autoImplicit false

/-- What is to be done. -/
inductive Command where
  /-- Report the first error in each of the files. -/
  | check (files : List String)
  /-- Write a stylesheet in canonical form, to a file or as output. -/
  | format (file : String) (target : Option String)
  /-- Show the style of every node of a tree, perhaps with the rules that made it. -/
  | resolve (sheet tree : String) (theme : Option String) (explain : Bool)
  /-- List the built-in stylesheets, or show one. -/
  | builtins (name : Option String)
  /-- Say how the program is used. -/
  | help
  deriving DecidableEq, Repr

/-- A command and how much is to be reported about it. -/
structure Request where
  verbosity : Int
  command : Command
  deriving DecidableEq, Repr

/-- The option that every command has. -/
def helpOption : OptionName := { long := "help", takesValue := false }

/-- The arguments of a command with the given further options. -/
def gatherFor (names : List OptionName) (arguments : List String) : Option Arguments :=
  gather (helpOption :: names) true arguments

/-- The command that a name and the arguments after it ask for. -/
def Command.ofArguments (name : String) (arguments : List String) : Option Command :=
  match name with
  | "check" => do
    let given ← gatherFor [] arguments
    if given.has "help" then some .help
    else if given.positionals = [] then none
    else some (.check (given.positionals.map Path.normalise))
  | "format" => do
    let given ← gatherFor [{ long := "output", letter := some 'o' }] arguments
    if given.has "help" then some .help
    else
      match given.positionals with
      | [file] =>
        some (.format (Path.normalise file) ((given.value? "output").map Path.normalise))
      | _ => none
  | "resolve" => do
    let given ←
      gatherFor [{ long := "theme", letter := some 't' }, { long := "explain", takesValue := false }]
        arguments
    if given.has "help" then some .help
    else
      match given.positionals with
      | [sheet, tree] =>
        some (.resolve (Path.normalise sheet) (Path.normalise tree)
          ((given.value? "theme").map Path.normalise) (given.has "explain"))
      | _ => none
  | "builtins" => do
    let given ← gatherFor [] arguments
    if given.has "help" then some .help
    else
      match given.positionals with
      | [] => some (.builtins none)
      | [name] => some (.builtins (some name))
      | _ => none
  | _ => none

/-- The verbosity that the arguments before a command ask for; zero if they ask for none,
and nothing if they ask for one out of range. -/
def verbosityOf (arguments : Arguments) : Option Int :=
  match arguments.value? "verbose" with
  | none => some 0
  | some text =>
    match Decimal.readInteger text.toList with
    | .ok verbosity => if 0 ≤ verbosity ∧ verbosity ≤ 3 then some verbosity else none
    | .error _ => none

/-- The request that a command line makes, if it is well-formed. -/
def Request.ofArguments (arguments : List String) : Option Request := do
  let given ← gather [helpOption, { long := "verbose", letter := some 'v' }] false arguments
  if given.has "help" then some ⟨0, .help⟩
  else
    let verbosity ← verbosityOf given
    match given.positionals with
    | [] => none
    | name :: rest => (Command.ofArguments name rest).map fun command => ⟨verbosity, command⟩

end TreeStyle.CommandLine
