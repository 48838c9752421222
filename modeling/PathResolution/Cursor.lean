/-
The one directory handle that a resolution holds.

A move opens the new handle relative to the one that is held, takes it over,
and only then gives the old one back, so that between moves exactly one
handle is held. The order matters when something fails: a directory that
cannot be opened leaves the cursor where it was, and an old handle that
cannot be given back leaves the cursor on the new one.
-/
import PathResolution.Dialogue

namespace PathResolution

/-- Holds a handle, or is closed. -/
structure Cursor where
  handle? : Option Handle
  deriving DecidableEq, Repr

namespace Cursor

/-- What an operation on a cursor ends with: its outcome, and the cursor as it
is then. -/
abbrev Answer (α : Type) := Except Fault α × Cursor

def closed : Cursor := ⟨none⟩

def isClosed (c : Cursor) : Bool := c.handle?.isNone

def handle (c : Cursor) : Except Fault Handle :=
  match c.handle? with
  | some h => .ok h
  | none => .error (.refused .cursorNotOpen)

-- ============================================================= ownership

/-- Takes over a handle, or none, and gives back what was held before. The
cursor holds the new handle from the start, whatever becomes of the old
one. -/
def replace (c : Cursor) (new : Option Handle) : Dialogue (Answer Unit) :=
  match c.handle? with
  | none => .done (.ok (), ⟨new⟩)
  | some old => .ask (.close old) fun reply => .done (reply, ⟨new⟩)

/-- Ends a move: a handle that was opened is taken over, and a failure leaves
the cursor as it is. -/
def land (c : Cursor) (entry : LogEntry) : Except Fault Handle → Dialogue (Answer Unit)
  | .error fault => .done (.error fault, c)
  | .ok new =>
    (c.replace (some new)).bind fun
      | (.ok (), moved) => .tell entry (.done (.ok (), moved))
      | (.error fault, moved) => .done (.error fault, moved)

/-- Opens the root and holds it. A handle that was held is forgotten, not
given back. -/
def enter (c : Cursor) : Dialogue (Answer Unit) :=
  .ask .openRoot fun
    | .ok root => .done (.ok (), ⟨some root⟩)
    | .error fault => .done (.error fault, c)

/-- Gives back what is held. The cursor is closed even if that fails. -/
def close (c : Cursor) : Dialogue (Answer Unit) := c.replace none

-- ================================================================= moves

/-- Does something with the handle that is held; a closed cursor refuses,
without a question. -/
def withHandle {α : Type} (c : Cursor) (use : Handle → Dialogue (Answer α)) :
    Dialogue (Answer α) :=
  match c.handle with
  | .ok h => use h
  | .error fault => .done (.error fault, c)

def descend (c : Cursor) (name : Name) : Dialogue (Answer Unit) :=
  c.withHandle fun h => .ask (.openRelative h name) (c.land (.movedInto name))

/-- Moves to the parent directory, which of the root is the root. -/
def ascend (c : Cursor) : Dialogue (Answer Unit) :=
  c.withHandle fun h => .ask (.openRelative h dotDot) (c.land .movedUp)

/-- Moves to the root. A closed cursor is open afterwards. -/
def reset (c : Cursor) : Dialogue (Answer Unit) := .ask .openRoot (c.land .movedToRoot)

def readLink (c : Cursor) (name : Name) : Dialogue (Answer Text) :=
  c.withHandle fun h => .ask (.readLink h name) fun reply => .done (reply, c)

end Cursor

end PathResolution
