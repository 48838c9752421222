/-
A tree of directories, files and links.

Directories are numbered in the order in which they are made, the root first,
so a number keeps meaning the same directory while the tree grows around it.
Every directory knows its entries and the directory above it; the root is
above itself. Nothing here follows a link: an entry is what its name says.
-/
import PathResolution.Path

namespace PathResolution

-- ================================================================= types

/-- A directory by its number. -/
abbrev DirId := Nat

inductive Node where
  | directory (id : DirId)
  | file
  | link (target : Text)
  deriving DecidableEq, Repr

/-- A directory: the one above it, and what is in it, in the order in which it
was put there. -/
structure Directory where
  parent : DirId
  entries : List (Name × Node)
  deriving DecidableEq, Repr

/-- All directories by number. -/
structure Tree where
  directories : List Directory
  deriving DecidableEq, Repr

namespace Tree

def root : DirId := 0

def empty : Tree := ⟨[⟨root, []⟩]⟩

-- =============================================================== looking

def entry? (t : Tree) (d : DirId) (name : Name) : Option Node :=
  t.directories[d]?.bind fun directory => directory.entries.lookup name

def parent (t : Tree) (d : DirId) : DirId :=
  match t.directories[d]? with
  | some directory => directory.parent
  | none => root

/-- What the names stand for one after the other, starting from a node. Every
name but the last must stand for a directory, and no link is followed. -/
def nodeFrom? (t : Tree) : Node → List Name → Option Node
  | node, [] => some node
  | .directory d, name :: rest => (t.entry? d name).bind fun node => t.nodeFrom? node rest
  | _, _ :: _ => none

/-- What the names stand for, starting from the root. -/
def node? (t : Tree) (ns : List Name) : Option Node := t.nodeFrom? (.directory root) ns

-- =============================================================== growing

/-- The tree with one more entry in a directory. -/
def addEntry (t : Tree) (d : DirId) (name : Name) (node : Node) : Tree :=
  ⟨t.directories.modify d fun directory =>
    { directory with entries := directory.entries ++ [(name, node)] }⟩

/-- The tree with one more directory, and its number. -/
def addDirectory (t : Tree) (d : DirId) (name : Name) : Tree × DirId :=
  let id := t.directories.length
  (⟨(t.addEntry d name (.directory id)).directories ++ [⟨d, []⟩]⟩, id)

/-- The tree without an entry of a directory. What the entry stood for is out
of reach afterwards, and its number stays in use. -/
def removeEntry (t : Tree) (d : DirId) (name : Name) : Tree :=
  ⟨t.directories.modify d fun directory =>
    { directory with entries := directory.entries.filter fun e => e.1 != name }⟩

end Tree

end PathResolution
