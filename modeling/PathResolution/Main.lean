/-
The command line program.

It resolves its arguments against a tree that is written out on its standard
input, so that paths of another machine, or of a tree that exists only on
paper, have canonical forms too.
-/
import PathResolution.CommandLine.Run
import PathResolution.CommandLine.Standard
import PathResolution.Inventory
import PathResolution.Release

namespace PathResolution

/-- Writes a line; code points that have no bytes are left out. -/
def writeLine (stream : IO.FS.Stream) (line : Text) : IO Unit := do
  let bytes := line.flatMap fun c => c.utf8?.getD []
  stream.write ⟨(bytes ++ [0x0A]).toArray⟩

def usageLines : List Text :=
  [text "usage: canonpath [-e] [-q] [-v] [--loop-budget N] PATH... < INVENTORY"]

def helpLines : List Text :=
  usageLines ++
    [text "  -e, --exact          the last name of each path must exist",
     text "  -q, --quiet          no messages about paths that fail",
     text "  -v, --verbose        tell every step",
     text "  --loop-budget N      take at most N names for each path",
     text "Each line of the inventory is d PATH, f PATH, or l PATH, a tab and a target.",
     text "Release " ++ version]

def messageLines : CommandLine.Message → List Text
  | .usage => usageLines
  | .help => helpLines
  | .logged entry => [entry.level.name ++ text " " ++ entry.message]
  | .line t => [t]

/-- The environment, as far as the program looks at it. -/
def readEnvironment : IO Environment := do
  let mut env := Environment.empty
  for name in [loopBudgetVariable, maxLinkSizeVariable, ExistenceMode.environmentName,
      Assignments.switchName] do
    let key := String.ofList (name.map fun c => Char.ofNat c.val)
    if let some value ← IO.getEnv key then env := env.set name (text value)
  return env

/-- The assignments in the current directory, if there are any. -/
def readAssignments : IO (Option Text) := do
  try return some (text (← IO.FS.readFile ".env"))
  catch _ => return none

partial def readAll (stream : IO.FS.Stream) : IO Text := do
  let line ← stream.getLine
  if line.isEmpty then return []
  return text line ++ (← readAll stream)

end PathResolution

open PathResolution in
/-- Runs the command line on the tree that is read from the standard input. -/
def main (arguments : List String) : IO UInt32 := do
  let env ← readEnvironment
  let assignments ← readAssignments
  let inventory ← readAll (← IO.getStdin)
  let directory := ((← IO.getEnv "PWD").map text).getD [separator]
  let store := Inventory.load (.empty directory) inventory
  let libraries := CommandLine.Libraries.standard (← (← IO.getStdout).isTty) (.ok assignments)
  let (report, _) := CommandLine.run libraries Store.answer (arguments.map text) env store
  for line in report.results do writeLine (← IO.getStdout) line
  for message in report.messages do
    for line in messageLines message do writeLine (← IO.getStderr) line
  match report.ended with
  | .ok exitCode => return UInt32.ofNat exitCode
  | .error failure =>
    writeLine (← IO.getStderr) failure.message
    return 1
