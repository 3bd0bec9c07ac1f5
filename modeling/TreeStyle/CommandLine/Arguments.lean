/-!
# Options and positional arguments

An argument that starts with a hyphen and goes on is an option.  An option has a
long name after two hyphens, and may have a letter after one.  A value follows the
letter at once, the long name after an equals sign, or is the next argument,
whatever that looks like.  Two hyphens alone end the options.

Where options may not stand among the positional arguments, the first positional
argument ends them as well.
-/

namespace TreeStyle.CommandLine

set_option autoImplicit false

/-- An option of a command. -/
structure OptionName where
  long : String
  letter : Option Char := none
  takesValue : Bool := true
  deriving DecidableEq, Repr

/-- The options and the positional arguments of a command, each in order. -/
structure Arguments where
  options : List (String × String) := []
  positionals : List String := []
  deriving DecidableEq, Repr

namespace Arguments

/-- Whether an option is given. -/
def has (arguments : Arguments) (long : String) : Bool :=
  arguments.options.any fun entry => entry.1 == long

/-- The value of an option; the last one counts. -/
def value? (arguments : Arguments) (long : String) : Option String :=
  (arguments.options.reverse.find? fun entry => entry.1 == long).map Prod.snd

/-- The arguments with an option in front. -/
def addOption (long value : String) (arguments : Arguments) : Arguments :=
  { arguments with options := (long, value) :: arguments.options }

/-- The arguments with a positional one in front. -/
def addPositional (text : String) (arguments : Arguments) : Arguments :=
  { arguments with positionals := text :: arguments.positionals }

end Arguments

/-- What one argument is. -/
inductive ArgumentForm where
  | positional
  | endOfOptions
  | option (long value : String)
  /-- An option whose value is the next argument. -/
  | optionBefore (long : String)
  | unknown
  deriving DecidableEq, Repr

/-- An option by its long name, perhaps with a value. -/
def longForm (names : List OptionName) (text : List Char) : ArgumentForm :=
  let long := text.takeWhile (· != '=')
  match names.find? fun name => name.long.toList == long, text.drop long.length with
  | none, _ => .unknown
  | some name, [] => if name.takesValue then .optionBefore name.long else .option name.long ""
  | some name, _ :: value =>
    if name.takesValue then .option name.long (String.ofList value) else .unknown

/-- An option by its letter, perhaps with a value. -/
def letterForm (names : List OptionName) (letter : Char) (value : List Char) : ArgumentForm :=
  match names.find? fun name => name.letter == some letter with
  | none => .unknown
  | some name =>
    if value = [] then .optionBefore name.long else .option name.long (String.ofList value)

/-- What an argument is. -/
def formOf (names : List OptionName) (argument : String) : ArgumentForm :=
  match argument.toList with
  | ['-', '-'] => .endOfOptions
  | '-' :: '-' :: text => longForm names text
  | '-' :: letter :: value => letterForm names letter value
  | _ => .positional

/-- The options and positional arguments of a command with the given options; nothing if
one is unknown or lacks its value.  Options stand among the positional arguments if
they are `interspersed`. -/
def gather (names : List OptionName) (interspersed : Bool) : List String → Option Arguments
  | [] => some {}
  | argument :: rest =>
    match formOf names argument with
    | .unknown => none
    | .endOfOptions => some { positionals := rest }
    | .positional =>
      if interspersed then (gather names interspersed rest).map (.addPositional argument)
      else some { positionals := argument :: rest }
    | .option long value => (gather names interspersed rest).map (.addOption long value)
    | .optionBefore long =>
      match rest with
      | [] => none
      | value :: more => (gather names interspersed more).map (.addOption long value)

end TreeStyle.CommandLine
