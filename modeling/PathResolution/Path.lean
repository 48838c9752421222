/-
Paths as lists of names.

A path is read as the names between its slashes; the empty ones that leading,
trailing and repeated slashes leave behind say nothing and are dropped. A
canonical path is written as a slash and the names joined by single slashes,
so reading and writing undo each other on names that are not empty and hold
no slash.
-/
import PathResolution.Text.Basic

namespace PathResolution

-- ================================================================= names

abbrev Name := Text

def separator : CodePoint := 0x2F

/-- The name of a directory in itself. -/
def dot : Name := [0x2E]

/-- The name of a directory's parent in it. -/
def dotDot : Name := [0x2E, 0x2E]

-- =============================================================== reading

def isAbsolute (path : Text) : Bool := path.head? == some separator

/-- The fields between the slashes of a path, the empty ones included. -/
def fields (path : Text) : List Text := partsAt separator path

/-- The names of a path, outermost first. -/
def names (path : Text) : List Name := (fields path).filter fun field => !field.isEmpty

-- =============================================================== writing

def joined (ns : List Name) : Text := [separator].intercalate ns

def pathOf (ns : List Name) : Text := separator :: joined ns

/-- The path of a collected list of names, and the list that is left, which
is empty: names are written out once. -/
def assemble (ns : List Name) : Text × List Name := (pathOf ns, [])

-- ======================================================== texts as paths

/-- One path behind another. An absolute second path stands alone. -/
def joinPath (a b : Text) : Text :=
  if isAbsolute b then b
  else if a.isEmpty || a.getLast? == some separator then a ++ b
  else a ++ separator :: b

/-- A path without its last name, and that name. Slashes at the end of the
first part go with the last name, unless there is nothing else. -/
def splitLast (path : Text) : Text × Name :=
  let last := (path.reverse.takeWhile (· != separator)).reverse
  let head := path.take (path.length - last.length)
  let trimmed := (head.reverse.dropWhile (· == separator)).reverse
  (if trimmed.isEmpty then head else trimmed, last)

-- ========================================================= pending names

/-- The names of a path put in front of those that are pending, and how many
they are. -/
def prependPath (path : Text) (pending : List Name) : List Name × Nat :=
  (names path ++ pending, (names path).length)

/-- The names with which a resolution starts: those of the working directory,
if there is one to start from, and then those of the path. -/
def startingNames (path : Text) (workingDirectory : Text) : List Name :=
  (prependPath workingDirectory (prependPath path []).1).1

end PathResolution
