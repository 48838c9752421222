/-
A filesystem in memory.

It is a tree, the handles that are open on it, and the text that it reports as
its working directory, which need not lead anywhere.
-/
import PathResolution.Dialogue
import PathResolution.HandleTable
import PathResolution.Tree.Walk

namespace PathResolution

/-- The state of a filesystem in memory. -/
structure Store where
  tree : Tree
  handles : HandleTable
  workingDirectory : Text
  deriving DecidableEq, Repr

namespace Store

def empty (workingDirectory : Text) : Store := ⟨.empty, .empty, workingDirectory⟩

def badHandle : Fault := .system (some Errno.badHandle) none

def openDirectory (s : Store) (d : DirId) : Handle × Store :=
  let (h, handles) := s.handles.add d
  (h, { s with handles })

/-- Opens what a path leads to from an open directory, following links. -/
def openRelative (s : Store) (base : Handle) (name : Name) : Except Fault Handle × Store :=
  match s.handles.directory? base with
  | none => (.error badHandle, s)
  | some d =>
    match s.tree.walk d name with
    | .error fault => (.error fault, s)
    | .ok (.directory found) =>
      let (h, opened) := s.openDirectory found
      (.ok h, opened)
    | .ok _ => (.error (Tree.faultAt Errno.notADirectory name), s)

def readLink (s : Store) (base : Handle) (name : Name) : Except Fault Text :=
  match s.handles.directory? base with
  | none => .error badHandle
  | some d =>
    if name = dot ∨ name = dotDot then .error (Tree.faultAt Errno.invalidArgument name)
    else match s.tree.entry? d name with
      | none => .error (Tree.faultAt Errno.noEntry name)
      | some (.link target) => .ok target
      | some _ => .error (Tree.faultAt Errno.invalidArgument name)

def closeHandle (s : Store) (h : Handle) : Except Fault Unit × Store :=
  match s.handles.close? h with
  | none => (.error badHandle, s)
  | some handles => (.ok (), { s with handles })

def answer : Dialogue.Answering Store
  | .openRoot, s =>
    let (h, opened) := s.openDirectory Tree.root
    (.ok h, opened)
  | .openRelative base name, s => s.openRelative base name
  | .readLink base name, s => (s.readLink base name, s)
  | .close h, s => s.closeHandle h
  | .workingDirectory, s => (.ok s.workingDirectory, s)

-- ============================================================== building

/-- Ends a builder: the handles and the working directory stay as they are. -/
def withTree (s : Store) (built : Tree.Built) : Except Fault Unit × Store :=
  (built.1, { s with tree := built.2 })

/-- Makes a directory, and those above it if `parents` says so. -/
def makeDirectory (s : Store) (path : Text) (parents mayExist : Bool) :
    Except Fault Unit × Store :=
  s.withTree (if parents then s.tree.makeDirectories path else s.tree.makeDirectory path mayExist)

def makeFile (s : Store) (path : Text) : Except Fault Unit × Store :=
  s.withTree (s.tree.makeFile path)

def makeLink (s : Store) (target path : Text) : Except Fault Unit × Store :=
  s.withTree (s.tree.makeLink target path)

end Store

end PathResolution
