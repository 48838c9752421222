/-
What one running program shares.

The program has one filesystem, one environment, at most one default
resolver, and one function that makes paths canonical for everyone. That
function is the builtin one, which works on the text of a path, until it is
replaced by another one of the program or by the one that resolves. Replacing it
by the latter gives a patch that remembers what was there before; undoing the
patch puts that back, whatever is there by then.
-/
import PathResolution.CommandLine.Run
import PathResolution.Filesystem
import PathResolution.Injection

namespace PathResolution

-- ================================================================ types

/-- A resolver. Two of them may have equal limits and still be two. -/
structure Resolver where
  identity : Nat
  limits : Limits
  deriving Repr

/-- A function that makes paths canonical. -/
inductive Canonicaliser where
  | builtin
  /-- Resolves with the default resolver, and leaves what cannot be resolved to
  the builtin one. -/
  | resolving
  /-- A function of the program's own, put there in place of the builtin one. -/
  | own (identity : Nat)
  deriving DecidableEq, Repr

/-- A replacement that can be undone. -/
structure Patch where
  replaced : Canonicaliser
  deriving DecidableEq, Repr

/-- A filesystem with planned faults and a record of its calls. -/
abbrev World := Dialogue.Recorded (Injected Filesystem)

structure Session where
  world : World
  environment : Environment
  nextResolver : Nat
  defaultResolver : Option Resolver
  installed : Canonicaliser
  /-- How far the builtin function goes. -/
  bounds : Lexical.Bounds
  /-- What the program's own functions make of a path, and of whether its last
  name must exist. -/
  own : Nat → Filesystem → Bool → Value → Except Failure PathArgument
  told : List LogEntry
  listening : Bool

namespace Session

/-- A program that has just started. Functions of its own leave paths as they
are. -/
def start (fs : Filesystem) (env : Environment) (bounds : Lexical.Bounds) : Session where
  world := ⟨⟨fs, []⟩, []⟩
  environment := env
  nextResolver := 0
  defaultResolver := none
  installed := .builtin
  bounds := bounds
  own _ _ _ path := path.path?.mapError .notAPath
  told := []
  listening := true

-- =========================================================== filesystem

/-- The filesystem without what is around it. -/
def filesystem (s : Session) : Filesystem := s.world.state.state

/-- The same program around another filesystem. -/
def withFilesystem (s : Session) (fs : Filesystem) : Session :=
  { s with world.state.state := fs }

/-- Answers questions: planned faults first, and every call is recorded. -/
def answer : Dialogue.Answering World := Dialogue.recording (injecting Filesystem.answer)

def converse {α : Type} (s : Session) (d : Dialogue α) : α × Session :=
  let outcome := d.run answer s.world
  let told := if s.listening then s.told ++ outcome.told else s.told
  (outcome.value, { s with world := outcome.state, told })

def put (s : Session) (question : Primitive) : question.Reply × Session :=
  s.converse (.put question)

/-- Changes the filesystem from outside: no question is put. -/
def change (s : Session) (f : Filesystem → Filesystem.Changed) : Except Fault Unit × Session :=
  let (outcome, fs) := f s.filesystem
  (outcome, s.withFilesystem fs)

def plan (s : Session) (i : Injection) : Session :=
  { s with world.state.planned := s.world.state.planned ++ [i] }

def clearPlans (s : Session) : Session := { s with world.state.planned := [] }

def setVariable (s : Session) (name : Text) (value : Option Text) :
    Except Fault Unit × Session :=
  match s.environment.update name value with
  | .ok environment => (.ok (), { s with environment })
  | .error fault => (.error fault, s)

/-- The calls recorded since the last time, in order, and what was told. -/
def takeRecords (s : Session) : (List Call × List LogEntry) × Session :=
  ((s.world.calls.reverse, s.told), { s with world.calls := [], told := [] })

-- ============================================================= resolvers

def makeResolver (s : Session) (loopBudget maxLinkSize : Option Int) :
    Except Failure Resolver × Session :=
  match Limits.configure loopBudget maxLinkSize s.environment with
  | .error e => (.error (.configuration e), s)
  | .ok limits => (.ok ⟨s.nextResolver, limits⟩, { s with nextResolver := s.nextResolver + 1 })

def setDefault (s : Session) (r : Resolver) : Session := { s with defaultResolver := some r }

/-- The default resolver, which is made when it is first asked for. -/
def getDefault (s : Session) : Except Failure Resolver × Session :=
  match s.defaultResolver with
  | some r => (.ok r, s)
  | none =>
    match s.makeResolver none none with
    | (.ok r, s) => (.ok r, s.setDefault r)
    | (.error failure, s) => (.error failure, s)

def resolve (s : Session) (r : Resolver) (path exact : Value) :
    Except Failure PathArgument × Session :=
  s.converse (PathResolution.resolve r.limits s.environment path exact)

def resolveOrNone (s : Session) (r : Resolver) (path exact : Value) :
    Except Failure (Option PathArgument) × Session :=
  s.converse (PathResolution.resolveOrNone r.limits s.environment path exact)

def absolutePath (s : Session) (path exact : Value) : Except Failure PathArgument × Session :=
  match s.getDefault with
  | (.error failure, s) => (.error failure, s)
  | (.ok r, s) => s.resolve r path exact

def absolutePathOrNone (s : Session) (path exact : Value) :
    Except Failure (Option PathArgument) × Session :=
  match s.getDefault with
  | (.error failure, s) => (.error failure, s)
  | (.ok r, s) => s.resolveOrNone r path exact

-- ======================================================== canonicalisers

def builtinPath (disk : Disk) (bounds : Lexical.Bounds) (strict : Bool) :
    PathArgument → Except Failure PathArgument
  | .text path =>
    match disk.lexicalPath bounds .embeddedNul strict path with
    | .ok canonical => .ok (.text canonical)
    | .error fault => .error (.fault fault)
  | .bytes path =>
    match disk.lexicalPath bounds .embeddedNulByte strict (ofUtf8 path) with
    | .error fault => .error (.fault fault.inBytes)
    | .ok canonical =>
      match utf8 canonical with
      | .ok bytes => .ok (.bytes bytes)
      | .error u => .error (.unencodable u)

def builtin (s : Session) (strict : Bool) (path : Value) : Except Failure PathArgument :=
  match path.path? with
  | .error e => .error (.notAPath e)
  | .ok argument => builtinPath s.filesystem.diskBeside s.bounds strict argument

/-- The function that resolves. -/
def resolving (s : Session) (strict : Bool) (path : Value) :
    Except Failure PathArgument × Session :=
  match s.absolutePath path (.truth strict) with
  | (.error (.resolution e), s) =>
    if strict then (.error (.resolution e), s) else (s.builtin false path, s)
  | answered => answered

/-- Makes a path canonical with the function that is installed. -/
def realPath (s : Session) (strict : Bool) (path : Value) :
    Except Failure PathArgument × Session :=
  match s.installed with
  | .builtin => (s.builtin strict path, s)
  | .resolving => s.resolving strict path
  | .own identity => (s.own identity s.filesystem strict path, s)

def install (s : Session) (f : Canonicaliser) : Session := { s with installed := f }

def patch (s : Session) : Patch × Session := (⟨s.installed⟩, s.install .resolving)

def undo (s : Session) (p : Patch) : Session := s.install p.replaced

/-- The variable that asks for the function that resolves. -/
def patchVariable : Text := text "CANONPATH_PATCH_REALPATH"

/-- What loading the library does: it installs the function that resolves if
the environment asks for it. -/
def load (s : Session) : Session :=
  if (s.environment.get patchVariable).isEmpty then s else s.patch.2

-- ========================================================== command line

/-- Runs a command line while a file lies in the working directory if it has
contents; the libraries may look at the disk. What is assigned to variables is
gone afterwards, and so is the file. A run takes the log over for good. -/
def runCommandLine (s : Session) (libraries : Disk → CommandLine.Libraries)
    (arguments : List Text) (file : Option Name) : CommandLine.Report × Session :=
  let before := s.filesystem
  let around := (file.map fun name => s.withFilesystem (before.withFile name)).getD s
  let (report, world) :=
    CommandLine.run (libraries s.filesystem.diskBeside) answer arguments s.environment around.world
  let after : Session := { s with world, listening := false }
  (report, after.withFilesystem (after.filesystem.withTreeOf before))

end Session

end PathResolution
