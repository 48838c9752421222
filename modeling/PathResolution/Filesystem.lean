/-
The two filesystems behind one face.

A tree in memory and the disk answer the same questions and are built by the
same steps. Their differences show in what a working directory is, in which
names are accepted, and in what faults speak of.
-/
import PathResolution.Disk.Builders
import PathResolution.LexicalPath
import PathResolution.Store
import PathResolution.Tree.Listing

namespace PathResolution

inductive Filesystem where
  | memory (s : Store)
  | disk (s : Disk)

namespace Filesystem

def answer : Dialogue.Answering Filesystem
  | question, .memory s =>
    let (reply, s) := s.answer question
    (reply, .memory s)
  | question, .disk s =>
    let (reply, s) := s.answer question
    (reply, .disk s)

def openHandles : Filesystem → Nat
  | .memory s => s.handles.size
  | .disk s => s.handles.size

abbrev Changed := Except Fault Unit × Filesystem

/-- Changes a filesystem in memory in one way and the disk in another. -/
def change (fs : Filesystem) (inMemory : Store → Except Fault Unit × Store)
    (onDisk : Disk → Except Fault Unit × Disk) : Changed :=
  match fs with
  | .memory s =>
    let (outcome, s) := inMemory s
    (outcome, .memory s)
  | .disk s =>
    let (outcome, s) := onDisk s
    (outcome, .disk s)

/-- Makes a directory. The disk always makes those above it as well. -/
def makeDirectory (fs : Filesystem) (path : Text) (parents mayExist : Bool) : Changed :=
  fs.change (·.makeDirectory path parents mayExist) (·.makeDirectories path mayExist)

def makeFile (fs : Filesystem) (path : Text) : Changed :=
  fs.change (·.makeFile path) (·.makeFile path)

def makeLink (fs : Filesystem) (target path : Text) : Changed :=
  fs.change (·.makeLink target path) (·.makeLink target path)

/-- Removes a directory; a filesystem in memory only grows. -/
def removeDirectory (fs : Filesystem) (path : Text) : Changed :=
  fs.change (fun s => (.ok (), s)) (·.removeDirectory path)

/-- Sets what the filesystem reports as its working directory. -/
def changeDirectory (fs : Filesystem) (path : Text) : Changed :=
  fs.change (fun s => (.ok (), { s with workingDirectory := path })) (·.changeDirectory path)

def listing : Filesystem → List (Text × Node)
  | .memory s => s.tree.listing
  | .disk s => s.tree.listing

/-- The disk as the process sees it beside the filesystem: beside a tree in
memory it holds nothing that is asked for. -/
def diskBeside : Filesystem → Disk
  | .memory _ => ⟨.empty, .empty, Tree.root⟩
  | .disk s => s

-- ======================================================= files for a while

/-- The filesystem with a file in the working directory of the process, if that
is on it and nothing has the file's name yet. -/
def withFile (fs : Filesystem) (name : Name) : Filesystem :=
  match fs with
  | .memory s => .memory s
  | .disk s =>
    if (s.tree.entry? s.workingDirectory name).isSome then .disk s
    else .disk { s with tree := s.tree.addEntry s.workingDirectory name .file }

/-- The filesystem with the tree that it had before. -/
def withTreeOf (fs before : Filesystem) : Filesystem :=
  match fs, before with
  | .memory s, .memory b => .memory { s with tree := b.tree }
  | .disk s, .disk b => .disk { s with tree := b.tree }
  | other, _ => other

end Filesystem

end PathResolution
