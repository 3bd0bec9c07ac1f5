import TreeStyle.CommandLine.Outcome

/-!
# The program

Reads the files that the command line names, carries out the request, and writes its
outcome.
-/

namespace TreeStyle.CommandLine

set_option autoImplicit false

/-- What is read from a file that has been opened. -/
def readHandle (handle : IO.FS.Handle) : IO FileContent := do
  try
    return .bytes (← handle.readBinToEnd).toList
  catch
    | error@(.inappropriateType ..) => return .refused true (toString error)
    | error => return .refused false (toString error)

/-- What the system answers when a file is read. -/
def readPath (path : String) : IO FileContent := do
  try
    readHandle (← IO.FS.Handle.mk path .read)
  catch
    | .noFileOrDirectory .. => return .missing
    | .inappropriateType .. => return .missing
    | error => return .refused false (toString error)

/-- The paths that a command takes files from or writes them to. -/
def pathsOf : Command → List String
  | .check paths => paths
  | .format path target =>
    path :: (target.map fun target => [target, Path.parent target]).getD []
  | .resolve sheet tree theme _ => [sheet, tree] ++ theme.toList
  | .builtins _ => []
  | .help => []

/-- What the system answers about some paths. -/
def readPaths (paths : List String) : IO Files := do
  let found ← paths.mapM fun path => return (path, ← readPath path)
  return { content := fun path => (found.lookup path).getD .missing }

/-- Carries out the request of a command line; the result is the exit status. -/
def execute (arguments : List String) : IO UInt32 := do
  let paths := ((Request.ofArguments arguments).map fun request => pathsOf request.command).getD []
  let host := Host.standard
  let outcome := host.run (← readPaths paths) arguments
  for (path, text) in outcome.written do
    IO.FS.writeFile path text
  (← IO.getStdout).putStr (host.transcript .output outcome.messages)
  (← IO.getStderr).putStr (host.transcript .errors outcome.messages)
  return outcome.exit.toUInt32

end TreeStyle.CommandLine

def main (arguments : List String) : IO UInt32 := TreeStyle.CommandLine.execute arguments
