/-
Building a tree by paths.

The paths of builders are taken literally from the root: no link is followed,
and `.` and `..` are refused, except by the builder that makes missing parent
directories, which takes every name as it is. That builder makes directories
as it goes, so what a builder answers comes with the tree as it is then,
whether it succeeds or not.
-/
import PathResolution.Fault
import PathResolution.Tree.Basic

namespace PathResolution.Tree

abbrev Built := Except Fault Unit × Tree

def faultAt (code : Errno) (path : Text) : Fault := .system (some code) (some (.text path))

-- ============================================================== locating

/-- The directory that the names lead to from `d`. -/
def directoryFrom (t : Tree) (path : Text) : DirId → List Name → Except Fault DirId
  | d, [] => .ok d
  | d, name :: rest =>
    match t.entry? d name with
    | none => .error (faultAt Errno.noEntry path)
    | some (.directory child) => t.directoryFrom path child rest
    | some _ => .error (faultAt Errno.notADirectory path)

/-- The directory that the last name of a path belongs into, and that name. -/
def locate (t : Tree) (path : Text) : Except Fault (DirId × Name) :=
  let ns := names path
  match ns.getLast? with
  | none => .error (faultAt Errno.invalidArgument path)
  | some last =>
    if ns.contains dotDot || ns.contains dot then .error (faultAt Errno.invalidArgument path)
    else (t.directoryFrom path root ns.dropLast).map fun d => (d, last)

-- ============================================================== building

/-- Makes a directory for every name that stands for nothing, and goes into
it. -/
def makeDirectoriesFrom (path : Text) : DirId → List Name → Tree → Built
  | _, [], t => (.ok (), t)
  | d, name :: rest, t =>
    match t.entry? d name with
    | some (.directory child) => makeDirectoriesFrom path child rest t
    | some _ => (.error (faultAt Errno.notADirectory path), t)
    | none =>
      let (grown, child) := t.addDirectory d name
      makeDirectoriesFrom path child rest grown

/-- Makes a directory and all those above it that are missing. -/
def makeDirectories (t : Tree) (path : Text) : Built :=
  makeDirectoriesFrom path root (names path) t

/-- Makes one directory; one that exists already is an error unless it may
exist. -/
def makeDirectory (t : Tree) (path : Text) (mayExist : Bool) : Built :=
  match t.locate path with
  | .error fault => (.error fault, t)
  | .ok (d, name) =>
    match t.entry? d name with
    | none => (.ok (), (t.addDirectory d name).1)
    | some (.directory _) =>
      (if mayExist then .ok () else .error (faultAt Errno.entryExists path), t)
    | some _ => (.error (faultAt Errno.entryExists path), t)

/-- Makes an empty file where there is nothing, and leaves a file or a link
alone. -/
def makeFile (t : Tree) (path : Text) : Built :=
  match t.locate path with
  | .error fault => (.error fault, t)
  | .ok (d, name) =>
    match t.entry? d name with
    | none => (.ok (), t.addEntry d name .file)
    | some (.directory _) => (.error (faultAt Errno.isADirectory path), t)
    | some _ => (.ok (), t)

def makeLink (t : Tree) (target path : Text) : Built :=
  match t.locate path with
  | .error fault => (.error fault, t)
  | .ok (d, name) =>
    match t.entry? d name with
    | none => (.ok (), t.addEntry d name (.link target))
    | some _ => (.error (faultAt Errno.entryExists path), t)

end PathResolution.Tree
