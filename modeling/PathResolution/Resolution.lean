/-
Resolution: from a path to its canonical form.

The names of the path wait in a queue. A resolution takes them one by one:
`.` is dropped; `..` drops the last committed name and moves the cursor up;
a name that is no link is committed, and the cursor moves into it if more
names wait; a link's target is put in front of the queue, from the root if it
is absolute. Committed names and cursor go together: at the head of the loop
the cursor stands in the directory that the committed names spell.

The loop is a recursion on the budget: every name that is taken costs one, so
a cycle of links ends with the budget.
-/
import PathResolution.Cursor
import PathResolution.Failure

namespace PathResolution

-- ================================================================ states

/-- What a resolution holds at the head of its loop. -/
structure Visit where
  /-- The names that wait, the next one first. -/
  pending : List Name
  /-- The committed names, the innermost one first. -/
  trail : List Name
  cursor : Cursor
  deriving DecidableEq, Repr

def trailPath (trail : List Name) : Text := pathOf trail.reverse

inductive Progress where
  | onward (visit : Visit)
  /-- The last name is missing and kept. -/
  | arrived (trail : List Name) (cursor : Cursor)
  | stuck (failure : Failure) (cursor : Cursor)
  deriving DecidableEq, Repr

/-- A resolution error at the name that was taken. -/
def Visit.stuckAt (v : Visit) (code : Errno) (name : Name) : Progress :=
  .stuck (.resolution (.at code (trailPath (name :: v.trail)))) v.cursor

/-- Goes on after a move of the cursor, or reports its failure at a path. -/
def afterMove (path : Text) (trail pending : List Name) :
    Cursor.Answer Unit → Dialogue Progress
  | (.ok (), cursor) => .done (.onward ⟨pending, trail, cursor⟩)
  | (.error fault, cursor) => .done (.stuck (fault.failureAt path) cursor)

-- =========================================================== kinds of names

/-- Takes `..`: the last committed name is dropped, if there is one, and the
cursor moves up in any case. -/
def climb (v : Visit) : Dialogue Progress :=
  let trail := v.trail.tail
  v.cursor.ascend.bind (afterMove (trailPath trail) trail v.pending)

/-- Takes a name that is no link. The cursor moves only if a name waits, so
the last name may be a file. -/
def commit (name : Name) (v : Visit) : Dialogue Progress :=
  let trail := name :: v.trail
  if v.pending.isEmpty then .done (.onward { v with trail })
  else (v.cursor.descend name).bind (afterMove (trailPath trail) trail v.pending)

def followLink (maxLinkSize : Nat) (name : Name) (target : Text) (v : Visit) :
    Dialogue Progress :=
  if target.isEmpty then .done (v.stuckAt Errno.noEntry name)
  else match utf8 target with
    | .error u => .done (.stuck (.fault (.refused (.unencodable u))) v.cursor)
    | .ok bytes =>
      if maxLinkSize ≤ bytes.length then .done (v.stuckAt Errno.nameTooLong name)
      else
        let pending := (prependPath target v.pending).1
        .tell (.followed name target) <|
          if isAbsolute target then
            v.cursor.reset.bind (afterMove (trailPath []) [] pending)
          else .done (.onward { v with pending })

/-- The error number of a fault that the system, or a filesystem in its
place, reports; `none` if the fault is of another kind. -/
def Fault.report? : Fault → Option (Option Errno)
  | .system code _ => some code
  | .unnumbered _ => some none
  | .resolution code _ => some (some code)
  | .refused _ | .interrupted _ | .nestedTooDeeply | .foreign _ _ => none

/-- Takes a name whose target could not be read. An invalid argument means
that it is no link. That it does not exist is tolerated in the lenient mode,
if no other name waits. -/
def afterUnreadable (mode : ExistenceMode) (name : Name) (v : Visit) (fault : Fault) :
    Dialogue Progress :=
  match fault.report? with
  | none => .done (.stuck (.fault fault) v.cursor)
  | some code =>
    if code = some Errno.invalidArgument then commit name v
    else if mode = .missingOk ∧ v.pending.isEmpty ∧ code = some Errno.noEntry then
      .tell (.keptMissing name) (.done (.arrived (name :: v.trail) v.cursor))
    else
      .done (.stuck
        (.ofCode (reportedCode code) (some (.text (trailPath (name :: v.trail)))) (some fault))
        v.cursor)

-- ================================================================== loop

/-- Takes one name, which no longer waits in `v`. -/
def takeName (mode : ExistenceMode) (maxLinkSize : Nat) (name : Name) (v : Visit) :
    Dialogue Progress :=
  if name = dot then .done (.onward v)
  else if name = dotDot then climb v
  else
    (v.cursor.readLink name).bind fun
      | (.ok target, cursor) => followLink maxLinkSize name target { v with cursor }
      | (.error fault, cursor) => afterUnreadable mode name { v with cursor } fault

/-- How the loop ends: the trail of the canonical path or a failure, and the
cursor as it is then. -/
abbrev LoopAnswer := Except Failure (List Name) × Cursor

/-- Takes names until none waits, or as many as the budget allows. -/
def takeNames (mode : ExistenceMode) (maxLinkSize : Nat) :
    (budget : Nat) → Visit → Dialogue LoopAnswer
  | _, ⟨[], trail, cursor⟩ => .done (.ok trail, cursor)
  | 0, ⟨name :: _, trail, cursor⟩ =>
    .done (.error (.resolution (.at Errno.tooManyLinks (trailPath (name :: trail)))), cursor)
  | budget + 1, ⟨name :: pending, trail, cursor⟩ =>
    (takeName mode maxLinkSize name ⟨pending, trail, cursor⟩).bind fun
      | .onward v => takeNames mode maxLinkSize budget v
      | .arrived trail cursor => .done (.ok trail, cursor)
      | .stuck failure cursor => .done (.error failure, cursor)

/-- Gives the cursor's handle back, however the loop ended. A failure to do so
takes the place of what the loop ended with. -/
def leave : LoopAnswer → Dialogue (Except Failure Text)
  | (answer, cursor) =>
    cursor.close.bind fun
      | (.ok (), _) => .done (answer.map trailPath)
      | (.error fault, _) => .done (.error (.fault fault))

/-- Holds a cursor for as long as the loop runs. -/
def visitNames (mode : ExistenceMode) (limits : Limits) (pending : List Name) :
    Dialogue (Except Failure Text) :=
  Cursor.closed.enter.bind fun
    | (.ok (), cursor) =>
      (takeNames mode limits.maxLinkSize limits.loopBudget ⟨pending, [], cursor⟩).bind leave
    | (.error fault, _) => .done (.error (.fault fault))

-- ============================================================ whole paths

/-- The working directory if the path is relative; an absolute path does not
ask for it. -/
def startingDirectory (path : Text) : Dialogue (Except Failure Text) :=
  if isAbsolute path then .done (.ok [])
  else .ask .workingDirectory fun
    | .ok directory => .done (.ok directory)
    | .error fault => .done (.error (fault.failureAt path))

/-- The canonical form of a path that the log shows in this way. -/
def canonicalPathShown (shown : Text) (limits : Limits) (mode : ExistenceMode) (path : Text) :
    Dialogue (Except Failure Text) :=
  (startingDirectory path).bind fun
    | .error failure => .done (.error failure)
    | .ok directory =>
      let pending := startingNames path directory
      .tell (.started shown mode pending.length) <|
        (visitNames mode limits pending).bind fun answer =>
          .done (answer.mapError (·.reportedAt path))

/-- The canonical form of a path: absolute, without `.`, `..` and links. -/
def canonicalPath (limits : Limits) (mode : ExistenceMode) (path : Text) :
    Dialogue (Except Failure Text) :=
  canonicalPathShown (quoted path) limits mode path

-- ============================================================= arguments

/-- The canonical form in the form of the path that was given; `shown` is how
the log shows a path. -/
def canonicalArgument (shown : Text → Text) (limits : Limits) (mode : ExistenceMode) :
    PathArgument → Dialogue (Except Failure PathArgument)
  | .text path =>
    (canonicalPathShown (shown path) limits mode path).bind fun answer =>
      .done (answer.map .text)
  | .bytes path =>
    let path := ofUtf8 path
    (canonicalPathShown (shown path) limits mode path).bind fun answer =>
      .done (answer.bind fun canonical =>
        match utf8 canonical with
        | .ok bytes => .ok (.bytes bytes)
        | .error u => .error (.unencodable u))

/-- Resolves any path in any mode: the path is looked at before the mode, and
both before the filesystem is asked anything. -/
def resolve (limits : Limits) (env : Environment) (path exact : Value) :
    Dialogue (Except Failure PathArgument) :=
  match path.path? with
  | .error e => .done (.error (.notAPath e))
  | .ok argument =>
    match exact.mode? env with
    | .error e => .done (.error e.failure)
    | .ok mode => canonicalArgument path.shownPath limits mode argument

/-- Resolves like `resolve`, but an error of the resolution itself is told and
answered with nothing. -/
def resolveOrNone (limits : Limits) (env : Environment) (path exact : Value) :
    Dialogue (Except Failure (Option PathArgument)) :=
  (resolve limits env path exact).bind fun
    | .ok canonical => .done (.ok (some canonical))
    | .error (.resolution e) => .tell (.unresolved path.shown e.code) (.done (.ok none))
    | .error failure => .done (.error failure)

end PathResolution
