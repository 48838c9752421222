/-
What the command line leaves to libraries.

Others read the arguments, assign variables from a file, write to the two
streams, and end a program that nobody keeps from failing. The command line
takes them as functions and says nothing about what they do; whoever runs it
hands them in. Standard.lean has those that the programs here run with.
-/
import PathResolution.Environment
import PathResolution.Failure
import PathResolution.LogEntry

namespace PathResolution.CommandLine

/-- What a command line asks for. -/
structure Invocation where
  paths : List Text
  /-- Every last name must exist. -/
  exact : Bool
  /-- No messages about paths that fail. -/
  quiet : Bool
  /-- Tell everything that happens. -/
  verbose : Bool
  loopBudget : Option Nat
  deriving DecidableEq, Repr

/-- Something that is written to the error stream. -/
inductive Message where
  | usage
  | help
  | logged (entry : LogEntry)
  | line (t : Text)
  deriving DecidableEq, Repr

/-- What a run writes, and how it ends. -/
structure Report where
  /-- The exit code, or a failure that goes on beyond the program. -/
  ended : Except Failure Nat
  /-- Each result and message ends its line. -/
  results : List Text
  messages : List Message
  deriving Repr

structure Libraries where
  /-- The invocation that the arguments ask for, or what is reported instead. -/
  parse : List Text → Except Report Invocation
  /-- Assigns variables: the lines that are written about it, and the
  environment after it. -/
  load : Environment → List Text × Except Fault Environment
  /-- What the output carries of a line, if it takes the line. -/
  echo : Text → Except Fault Text
  /-- What the error stream carries of a message, if it takes the message. -/
  print : Text → Except Fault Text
  /-- How a failure that nobody keeps ends the program, and its last lines. -/
  abort : Failure → Except Failure Nat × List Text

end PathResolution.CommandLine
