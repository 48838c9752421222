/-
Changing what is on the disk.

Paths are looked up as the system does, from the working directory and
through links. What the system is handed is checked first: it has to have
bytes, not too many, and no NUL among them.
-/
import PathResolution.Disk.Basic

namespace PathResolution.Disk

abbrev Changed := Except Fault Unit × Disk

def succeed (s : Disk) (tree : Tree) : Changed := (.ok (), { s with tree })

def fail (s : Disk) (fault : Fault) : Changed := (.error fault, s)

/-- Makes a change with a path that the system accepts. -/
def accepting (s : Disk) (path : Text) (change : Changed) : Changed :=
  match objection? path with
  | some fault => s.fail fault
  | none => change

-- =========================================================== directories

def pathExists (t : Tree) (d : DirId) (path : Text) : Bool :=
  (objection? path).isNone && (walk t d path).isOk

def leadsToDirectory (t : Tree) (d : DirId) (path : Text) : Bool :=
  match walk t d path with
  | .ok (.directory _) => true
  | _ => false

/-- Makes one directory where there is nothing, not even a link. -/
def makeOne (t : Tree) (d : DirId) (path : Text) : Except Errno Tree :=
  match locate t d path with
  | .error code => .error code
  | .ok (holder, last) =>
    if last = dot ∨ last = dotDot ∨ (t.entry? holder last).isSome then .error Errno.entryExists
    else if isAttached t holder then .ok (t.addDirectory holder last).1
    else .error Errno.noEntry

/-- A path without its last name, and that name; slashes at the end of the path
do not count. -/
def lastAndAbove (path : Text) : Text × Name :=
  let (head, last) := splitLast path
  if last.isEmpty then splitLast head else (head, last)

/-- Makes the directory of the last name, unless `made` says that it exists by
now. -/
def makeLast (d : DirId) (mayExist made : Bool) (path : Text) (t : Tree) :
    Except Fault Unit × Tree :=
  if made then (.ok (), t)
  else match objection? path, makeOne t d path with
    | some fault, _ => (.error fault, t)
    | none, .ok grown => (.ok (), grown)
    | none, .error code =>
      if mayExist && leadsToDirectory t d path then (.ok (), t)
      else (.error (faultAt code path), t)

/-- Makes the directories above the last name that are missing, and then that
of the last name. The error speaks of the directory that cannot be made; at
most `count` of them are made. -/
def makeWithAbove (d : DirId) (mayExist : Bool) :
    (count : Nat) → Text → Tree → Except Fault Unit × Tree
  | 0, _, t => (.error .nestedTooDeeply, t)
  | count + 1, path, t =>
    let (head, last) := lastAndAbove path
    let missing := !head.isEmpty && !last.isEmpty && !pathExists t d head
    let made := missing && last == dot
    let (above, t) := if missing then makeWithAbove d mayExist count head t else (.ok (), t)
    match above with
    | .ok () => makeLast d mayExist made path t
    | .error fault =>
      if fault.code? = some Errno.entryExists then makeLast d mayExist made path t
      else (.error fault, t)

/-- Makes a directory and those above it that are missing. The system looks at
each of their paths on its own, so those that it accepts are made even if it
objects to the whole path. -/
def makeDirectories (s : Disk) (path : Text) (mayExist : Bool) : Changed :=
  let (outcome, tree) := makeWithAbove s.workingDirectory mayExist maxNesting path s.tree
  (outcome, { s with tree })

def removeDirectory (s : Disk) (path : Text) : Changed :=
  s.accepting path <|
    match locate s.tree s.workingDirectory path with
    | .error code => s.fail (faultAt (if code = Errno.entryExists then Errno.busy else code) path)
    | .ok (holder, last) =>
      if last = dot then s.fail (faultAt Errno.invalidArgument path)
      else if last = dotDot then s.fail (faultAt Errno.notEmpty path)
      else match s.tree.entry? holder last with
        | none => s.fail (faultAt Errno.noEntry path)
        | some (.directory d) =>
          if (s.tree.directories[d]?.any fun directory => directory.entries.isEmpty) then
            s.succeed (s.tree.removeEntry holder last)
          else s.fail (faultAt Errno.notEmpty path)
        | some _ => s.fail (faultAt Errno.notADirectory path)

def changeDirectory (s : Disk) (path : Text) : Changed :=
  s.accepting path <|
    match walk s.tree s.workingDirectory path with
    | .error code => s.fail (faultAt code path)
    | .ok (.directory d) => (.ok (), { s with workingDirectory := d })
    | .ok _ => s.fail (faultAt Errno.notADirectory path)

-- ======================================================= files and links

/-- Makes a file where the path leads, through links that lead nowhere yet; at
most `links` links are followed in all. A slash at the end is refused before
the last name is looked at. -/
def makeFileFrom (t : Tree) (links : Nat) (d : DirId) (path : Text) : Except Errno Tree :=
  match found : holderWithin t links d path with
  | .error code => .error (if code = Errno.entryExists then Errno.isADirectory else code)
  | .ok (holder, last, left) =>
    have := links_le_of_holderWithin found
    if last = dot ∨ last = dotDot ∨ path.getLast? = some separator then
      .error Errno.isADirectory
    else if isTooLongIn t holder last then .error Errno.nameTooLong
    else match t.entry? holder last, left with
      | none, _ =>
        if isAttached t holder then .ok (t.addEntry holder last .file)
        else .error Errno.noEntry
      | some .file, _ => .ok t
      | some (.directory _), _ => .error Errno.isADirectory
      | some (.link _), 0 => .error Errno.tooManyLinks
      | some (.link target), left + 1 => makeFileFrom t left holder target
termination_by links
decreasing_by omega

def makeFile (s : Disk) (path : Text) : Changed :=
  s.accepting path <|
    match makeFileFrom s.tree maxLinks s.workingDirectory path with
    | .error code => s.fail (faultAt code path)
    | .ok tree => s.succeed tree

/-- The tree with a link where there was nothing. -/
def addLink (t : Tree) (d : DirId) (target path : Text) : Except Errno Tree :=
  match locate t d path with
  | .error code => .error code
  | .ok (holder, last) =>
    if last = dot ∨ last = dotDot ∨ (t.entry? holder last).isSome then .error Errno.entryExists
    else if path.getLast? ≠ some separator ∧ isAttached t holder then
      .ok (t.addEntry holder last (.link (kept target)))
    else .error Errno.noEntry

/-- Makes a link where there is nothing. The two paths are refused before
either is looked at, and what the system reports speaks of the target. -/
def makeLink (s : Disk) (target path : Text) : Changed :=
  match refusal? target, refusal? path with
  | some why, _ | none, some why => s.fail (.refused why)
  | none, none =>
    if target.isEmpty then s.fail (faultAt Errno.noEntry target)
    else if isTooLong target || isTooLong path then s.fail (faultAt Errno.nameTooLong target)
    else match addLink s.tree s.workingDirectory target path with
      | .error code => s.fail (faultAt code target)
      | .ok tree => s.succeed tree

end PathResolution.Disk
