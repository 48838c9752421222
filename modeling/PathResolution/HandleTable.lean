/-
Open handles of a filesystem.

Handles are numbered from 3 up in the order in which they are opened; a
number that was given out is never given out again.
-/
import PathResolution.Primitive
import PathResolution.Tree.Basic

namespace PathResolution

/-- The handles that are open, with their directories, and the number of the
next one. -/
structure HandleTable where
  opened : List (Handle × DirId)
  next : Handle
  deriving DecidableEq, Repr

namespace HandleTable

/-- No handle has been opened. -/
def empty : HandleTable := ⟨[], 3⟩

def directory? (table : HandleTable) (h : Handle) : Option DirId := table.opened.lookup h

def size (table : HandleTable) : Nat := table.opened.length

/-- Opens a handle to a directory. -/
def add (table : HandleTable) (d : DirId) : Handle × HandleTable :=
  (table.next, ⟨table.opened ++ [(table.next, d)], table.next + 1⟩)

/-- Closes a handle, unless it is not open. -/
def close? (table : HandleTable) (h : Handle) : Option HandleTable :=
  if (table.directory? h).isSome then
    some { table with opened := table.opened.filter fun e => e.1 != h }
  else none

end HandleTable

end PathResolution
