/-
The libraries that the programs here run their command lines with.

They do for those programs what Libraries.lean leaves open, in one of the ways
in which it can be done. Nothing is proved of a command line from how they do
it; Proofs/CommandLine/Standard.lean shows that they do what is relied on.
-/
import PathResolution.CommandLine.Libraries
import PathResolution.CommandLine.Standard.Arguments
import PathResolution.CommandLine.Standard.Assignments
import PathResolution.CommandLine.Standard.Streams

namespace PathResolution.CommandLine

/-- A report of the reader of arguments. -/
def Request.invocation? : Request → Except Report Invocation
  | .invocation i => .ok i
  | .help => .error ⟨.ok 0, [], [.help]⟩
  | .usage => .error ⟨.ok 2, [], [.usage]⟩

/-- The line about a statement of a file of assignments that makes no
sense. -/
def nonsenseLine (line : Nat) : Text :=
  text "python-dotenv could not parse statement starting at line " ++ decimalNat line

/-- Has the file that was found assign the variables that are not set, unless the
environment says that no file is read. It is looked for all the same. -/
def loaded (found : Except Fault (Option Text)) (env : Environment) :
    List Text × Except Fault Environment :=
  match found with
  | .error fault => ([], .error fault)
  | .ok none => ([], .ok env)
  | .ok (some file) =>
    if Assignments.isDisabled env then ([], .ok env)
    else ((Assignments.nonsenseLines file).map nonsenseLine, Assignments.load env file)

/-- A program that is stopped says so if its input has ended, and in its exit code
in any case. Other failures go on beyond it. -/
def aborted : Failure → Except Failure Nat × List Text
  | .fault (.interrupted .endOfInput) => (.ok 1, [[], text "Aborted."])
  | .fault (.interrupted .requested) => (.ok 130, [])
  | failure => (.error failure, [])

/-- The output is a screen or none, and this came of the search for a file of
assignments. -/
def Libraries.standard (isScreen : Bool) (found : Except Fault (Option Text)) : Libraries where
  parse arguments := (Request.ofArguments arguments).invocation?
  load := loaded found
  echo := echoed isScreen
  print t := .ok (withoutControls t)
  abort := aborted

end PathResolution.CommandLine
