/-
The system's own filesystem.

It follows the rules of a tree in memory, and besides those of Linux: a name
is kept as its bytes, at most 255 of them and no NUL among them; a lookup
follows at most 40 links in all; the working directory is a place in the tree
and not a text, and has no path any more once it is removed. The process may
do everything, so permissions play no part.
-/
import PathResolution.Dialogue
import PathResolution.HandleTable
import PathResolution.Tree.Walk

namespace PathResolution

/-- The state of the disk, as one process sees it. -/
structure Disk where
  tree : Tree
  handles : HandleTable
  workingDirectory : DirId
  deriving Repr

namespace Disk

-- ================================================================= paths

def maxNameSize : Nat := 255

/-- The size of the buffer that a path or a link's target has to fit, the byte
that ends it included. -/
def maxPathSize : Nat := 4096

/-- How many steps of one kind may be underway inside each other. -/
def maxNesting : Nat := 990

/-- How many bytes a text has; one without bytes is never asked about. -/
def byteCount (t : Text) : Nat :=
  match utf8 t with
  | .ok bytes => bytes.length
  | .error _ => 0

/-- A text as the disk gives it back: the text of its bytes. Two texts with the
same bytes are one name. -/
def kept (t : Text) : Text :=
  match utf8 t with
  | .ok bytes => ofUtf8 bytes
  | .error _ => t

def isTooLong (path : Text) : Bool := decide (maxPathSize ≤ byteCount path)

/-- Why a path cannot be handed to the system. -/
def refusal? (path : Text) : Option Refusal :=
  match utf8 path with
  | .error u => some (.unencodable u)
  | .ok bytes => if bytes.contains 0 then some .embeddedNul else none

def faultAt (code : Errno) (path : Text) : Fault := Tree.faultAt code path

/-- Why the system does not look at a path, whatever is on the disk. -/
def objection? (path : Text) : Option Fault :=
  match refusal? path with
  | some why => some (.refused why)
  | none => if isTooLong path then some (faultAt Errno.nameTooLong path) else none

-- ============================================================== reaching

/-- The names that lead from the root to a directory, put in front of `below`;
none if it has been removed. `height` is how far up the root may be. -/
def namesAbove? (t : Tree) : (height : Nat) → DirId → List Name → Option (List Name)
  | 0, d, below => if d = Tree.root then some below else none
  | height + 1, d, below =>
    if d = Tree.root then some below
    else do
      let directory ← t.directories[t.parent d]?
      let (name, _) ← directory.entries.find? fun e => e.2 == .directory d
      namesAbove? t height (t.parent d) (name :: below)

def pathTo? (t : Tree) (d : DirId) : Option Text :=
  (namesAbove? t t.directories.length d []).map pathOf

/-- Whether a directory can still be reached from the root. -/
def isAttached (t : Tree) (d : DirId) : Bool := (pathTo? t d).isSome

/-- Whether a directory refuses a name for its size. One that has been removed
looks at no name any more. -/
def isTooLongIn (t : Tree) (d : DirId) (name : Name) : Bool :=
  decide (maxNameSize < byteCount name) && isAttached t d

-- =============================================================== walking

def maxLinks : Nat := 40

/-- The names that a lookup of a path takes. A slash at the end asks for a
directory, as a dot behind it would. -/
def namesToTake (path : Text) : List Name :=
  if path.getLast? = some separator then names path ++ [dot] else names path

/-- Looks names up from a node, following at most `links` links in all: what
they lead to, and how many links may still be followed. -/
def walkNames (t : Tree) (links : Nat) : Node → List Name → Except Errno (Node × Nat)
  | node, [] => .ok (node, links)
  | .directory d, name :: rest =>
    if name = dot then walkNames t links (.directory d) rest
    else if name = dotDot then walkNames t links (.directory (t.parent d)) rest
    else if isTooLongIn t d name then .error Errno.nameTooLong
    else
      match t.entry? d name with
      | none => .error Errno.noEntry
      | some (.link target) =>
        match links with
        | 0 => .error Errno.tooManyLinks
        | links + 1 =>
          walkNames t links (.directory (Tree.walkStart d target)) (namesToTake target ++ rest)
      | some node => walkNames t links node rest
  | _, _ :: _ => .error Errno.notADirectory
termination_by _ ns => (links, ns.length)

/-- No lookup gains links. -/
theorem links_le_of_walkNames {t : Tree} {links left : Nat} {start found : Node}
    {ns : List Name} (h : walkNames t links start ns = .ok (found, left)) : left ≤ links := by
  fun_induction walkNames t links start ns <;> grind

/-- Looks a path up from a directory. The empty path leads nowhere. -/
def walk (t : Tree) (d : DirId) (path : Text) : Except Errno Node :=
  let path := kept path
  if path.isEmpty then .error Errno.noEntry
  else (walkNames t maxLinks (.directory (Tree.walkStart d path)) (namesToTake path)).map (·.1)

/-- The directory that holds the last name of a path, that name, and how many
links may still be followed. The name itself is not looked at. -/
def holderWithin (t : Tree) (links : Nat) (d : DirId) (path : Text) :
    Except Errno (DirId × Name × Nat) :=
  let path := kept path
  match (names path).getLast? with
  | none => .error (if path.isEmpty then Errno.noEntry else Errno.entryExists)
  | some last =>
    match walkNames t links (.directory (Tree.walkStart d path)) (names path).dropLast with
    | .error code => .error code
    | .ok (.directory holder, left) => .ok (holder, last, left)
    | .ok _ => .error Errno.notADirectory

/-- No lookup of a directory gains links. -/
theorem links_le_of_holderWithin {t : Tree} {links left : Nat} {d holder : DirId}
    {path : Text} {last : Name} (h : holderWithin t links d path = .ok (holder, last, left)) :
    left ≤ links := by
  simp only [holderWithin] at h
  split at h
  · cases h
  · split at h
    · cases h
    · next found =>
      cases h
      exact links_le_of_walkNames found
    · cases h

/-- The directory that holds the last name of a path, and that name. -/
def locate (t : Tree) (d : DirId) (path : Text) : Except Errno (DirId × Name) :=
  match holderWithin t maxLinks d path with
  | .error code => .error code
  | .ok (holder, last, _) =>
    if isTooLongIn t holder last then .error Errno.nameTooLong else .ok (holder, last)

-- ============================================================= answering

def openDirectory (s : Disk) (d : DirId) : Handle × Disk :=
  let (h, handles) := s.handles.add d
  (h, { s with handles })

/-- Does something with a name and the directory that it is looked up from. The
handle does not matter to an absolute name. -/
def lookingUp {α : Type} (s : Disk) (base : Handle) (name : Name)
    (use : DirId → Except Fault α) : Except Fault α :=
  match objection? name with
  | some fault => .error fault
  | none =>
    match s.handles.directory? base with
    | some d => use d
    | none =>
      if isAbsolute name then use Tree.root
      else .error (faultAt Errno.badHandle name)

def directoryAt (t : Tree) (d : DirId) (name : Name) : Except Fault DirId :=
  match walk t d name with
  | .error code => .error (faultAt code name)
  | .ok (.directory found) => .ok found
  | .ok _ => .error (faultAt Errno.notADirectory name)

/-- Opens what a name leads to from an open directory. The empty name leads
nowhere, whatever the handle. -/
def openRelative (s : Disk) (base : Handle) (name : Name) : Except Fault Handle × Disk :=
  if name.isEmpty then (.error (faultAt Errno.noEntry name), s)
  else match s.lookingUp base name fun d => directoryAt s.tree d name with
    | .error fault => (.error fault, s)
    | .ok found =>
      let (h, opened) := s.openDirectory found
      (.ok h, opened)

/-- The target of a link, seen from a directory. -/
def targetFrom (t : Tree) (d : DirId) (path : Text) : Except Errno Text :=
  if path.getLast? = some separator then
    match walk t d path with
    | .error code => .error code
    | .ok _ => .error Errno.invalidArgument
  else match locate t d path with
    | .error code => .error code
    | .ok (holder, last) =>
      if last = dot ∨ last = dotDot then .error Errno.invalidArgument
      else match t.entry? holder last with
        | none => .error Errno.noEntry
        | some (.link target) => .ok target
        | some _ => .error Errno.invalidArgument

def readLink (s : Disk) (base : Handle) (name : Name) : Except Fault Text :=
  s.lookingUp base name fun d =>
    match targetFrom s.tree d name with
    | .error code => .error (faultAt code name)
    | .ok target => .ok target

def closeHandle (s : Disk) (h : Handle) : Except Fault Unit × Disk :=
  match s.handles.close? h with
  | none => (.error (.system (some Errno.badHandle) none), s)
  | some handles => (.ok (), { s with handles })

def workingPath (s : Disk) : Except Fault Text :=
  match pathTo? s.tree s.workingDirectory with
  | some path => .ok path
  | none => .error (.system (some Errno.noEntry) none)

def answer : Dialogue.Answering Disk
  | .openRoot, s =>
    let (h, opened) := s.openDirectory Tree.root
    (.ok h, opened)
  | .openRelative base name, s => s.openRelative base name
  | .readLink base name, s => (s.readLink base name, s)
  | .close h, s => s.closeHandle h
  | .workingDirectory, s => (s.workingPath, s)

end Disk

end PathResolution
