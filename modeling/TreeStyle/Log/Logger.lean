import TreeStyle.Log
import TreeStyle.Log.Template

/-!
# Loggers

A logger writes messages to one stream at a time.  Setting it up chooses a
verbosity and a new stream; resetting it takes the stream away.  A message
reaches the stream in use, as a line, if its level is at least the threshold.
-/

namespace TreeStyle.Log

set_option autoImplicit false

/-- A logger: its threshold, the stream in use, and the text of every stream so far. -/
structure Logger where
  threshold : Nat := Level.error.severity
  current : Option Nat := none
  streams : List String := []
  deriving DecidableEq, Repr

namespace Logger

/-- The logger with a verbosity and a new stream. -/
def setup (logger : Logger) (verbosity : Int) : Logger where
  threshold := Log.threshold verbosity
  current := some logger.streams.length
  streams := logger.streams ++ [""]

/-- The logger without a stream in use, for errors alone. -/
def reset (logger : Logger) : Logger :=
  { logger with threshold := Level.error.severity, current := none }

/-- Whether messages of a level are written. -/
def isEnabledFor (logger : Logger) (level : Level) : Bool := logger.threshold ≤ level.severity

/-- The logger after a message of a level. -/
def log (logger : Logger) (level : Level) (message : String) : Logger :=
  match logger.current with
  | none => logger
  | some stream =>
    if logger.isEnabledFor level then
      { logger with streams := logger.streams.modify stream (· ++ message ++ "\n") }
    else logger

/-- The logger after a template with arguments; one that does not fit its arguments
is not written. -/
def logTemplate (logger : Logger) (level : Level) (template : String) (arguments : List Value) :
    Logger :=
  match fill template arguments with
  | some message => logger.log level message
  | none => logger

/-- The logger after events. -/
def logEvents (logger : Logger) (events : List Event) : Logger :=
  events.foldl (fun reached event => reached.log event.level event.message) logger

end Logger

end TreeStyle.Log
