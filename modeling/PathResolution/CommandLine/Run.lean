/-
The command line: the canonical form of each path.

Each path is resolved on its own. Those that have a canonical form are written
to the output in the order of the arguments, and each of the others gives a
message and the exit code 1. A configuration that is not valid ends the run
with the exit code 2 before any path is looked at. Any failure but a resolution
error ends the run at once, and so does a stream that does not take a line; what
was written by then stays written.
-/
import PathResolution.CommandLine.Libraries
import PathResolution.Resolution

namespace PathResolution.CommandLine

-- ============================================================= stretches

/-- What a part of a run writes, and how it ends. -/
structure Stretch where
  results : List Text
  messages : List Message
  /-- Some path has no canonical form. -/
  hasFailed : Bool
  /-- The failure that ends the run early, if one does. -/
  ended : Option Failure
  deriving DecidableEq, Repr

def Stretch.nothing : Stretch := ⟨[], [], false, none⟩

/-- One part of a run and the next, which there is only if the run goes on. -/
def Stretch.append (a b : Stretch) : Stretch :=
  match a.ended with
  | some _ => a
  | none =>
    ⟨a.results ++ b.results, a.messages ++ b.messages, a.hasFailed || b.hasFailed, b.ended⟩

-- ================================================================= paths

/-- A text for the error stream, under the name of the program. -/
def complaint (t : Text) : Text := text "canonpath: " ++ t

/-- What is written about a path that has come to this. -/
def Libraries.tell (lib : Libraries) (quiet : Bool) (path : Text) :
    Except Failure Text → Stretch
  | .ok canonical =>
    match lib.echo canonical with
    | .ok line => ⟨[line], [], false, none⟩
    | .error fault => ⟨[], [], false, some (.fault fault)⟩
  | .error (.resolution e) =>
    if quiet then ⟨[], [], true, none⟩
    else match lib.print (complaint (path ++ text ": " ++ Errno.message e.code)) with
      | .ok line => ⟨[], [.line line], true, none⟩
      | .error fault => ⟨[], [], true, some (.fault fault)⟩
  | .error failure => ⟨[], [], false, some failure⟩

/-- What is written about a path: if it is asked for, what was told while it was
resolved, and then what it has come to. -/
def Libraries.about (lib : Libraries) (i : Invocation) (path : Text)
    (value : Except Failure Text) (told : List LogEntry) : Stretch :=
  let about := lib.tell i.quiet path value
  { about with messages := (if i.verbose then told.map .logged else []) ++ about.messages }

def resolveAll {σ : Type} (lib : Libraries) (answer : Dialogue.Answering σ) (i : Invocation)
    (limits : Limits) (mode : ExistenceMode) : List Text → σ → Stretch × σ
  | [], state => (.nothing, state)
  | path :: rest, state =>
    let outcome := (canonicalPath limits mode path).run answer state
    let first := lib.about i path outcome.value outcome.told
    if first.ended.isSome then (first, outcome.state)
    else
      let (others, state) := resolveAll lib answer i limits mode rest outcome.state
      (first.append others, state)

-- ========================================================= configuration

/-- The limits and the mode of a run. The environment names the mode only if
the options do not. -/
def configure (i : Invocation) (env : Environment) :
    Except ConfigurationError (Limits × ExistenceMode) := do
  let limits ← Limits.configure (i.loopBudget.map Int.ofNat) none env
  if i.exact then pure (limits, .exact)
  else match ExistenceMode.ofEnvironment env with
    | .ok mode => pure (limits, mode.getD .missingOk)
    | .error value => throw (.unknownMode value)

-- ================================================================== runs

/-- The report about a run that has come to its end, early or not. -/
def Libraries.report (lib : Libraries) (s : Stretch) : Report :=
  match s.ended with
  | none => ⟨.ok (if s.hasFailed then 1 else 0), s.results, s.messages⟩
  | some failure =>
    let (ended, last) := lib.abort failure
    ⟨ended, s.results, s.messages ++ last.map .line⟩

/-- The report about a run that looks at no path. -/
def Libraries.refusal (lib : Libraries) (e : ConfigurationError) : Report :=
  match lib.print (complaint e.message) with
  | .ok line => ⟨.ok 2, [], [.line line]⟩
  | .error fault => lib.report ⟨[], [], false, some (.fault fault)⟩

def execute {σ : Type} (lib : Libraries) (answer : Dialogue.Answering σ) (i : Invocation)
    (env : Environment) (state : σ) : Report × σ :=
  match configure i env with
  | .error e => (lib.refusal e, state)
  | .ok (limits, mode) =>
    let (swept, state) := resolveAll lib answer i limits mode i.paths state
    (lib.report swept, state)

/-- The report with lines that were written before it. -/
def Report.after (lines : List Text) (r : Report) : Report :=
  { r with messages := lines.map .line ++ r.messages }

/-- Runs a command line. -/
def run {σ : Type} (lib : Libraries) (answer : Dialogue.Answering σ) (arguments : List Text)
    (env : Environment) (state : σ) : Report × σ :=
  match lib.parse arguments with
  | .error report => (report, state)
  | .ok i =>
    match lib.load env with
    | (lines, .error fault) =>
      ((lib.report ⟨[], [], false, some (.fault fault)⟩).after lines, state)
    | (lines, .ok env) =>
      let (report, state) := execute lib answer i env state
      (report.after lines, state)

end PathResolution.CommandLine
