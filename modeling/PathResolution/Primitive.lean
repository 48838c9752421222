/-
The five questions that a resolution puts to a filesystem.

Handles are numbers that mean something only to the filesystem that gave them
out. Each question is answered by what it asks for or by a fault; a record
keeps a question together with its answer.
-/
import PathResolution.Fault

namespace PathResolution

/-- An open directory, as the filesystem that opened it numbers it. Any number
can be asked about. -/
abbrev Handle := Int

inductive Primitive where
  | openRoot
  /-- Open a directory by its name in an open one; the name may be `..`. -/
  | openRelative (base : Handle) (name : Name)
  /-- Read the target of a link by its name in an open directory. What exists
  and is no link is an invalid argument, and what does not exist is no
  entry. -/
  | readLink (base : Handle) (name : Name)
  | close (handle : Handle)
  | workingDirectory
  deriving DecidableEq, Repr

namespace Primitive

abbrev Result : Primitive → Type
  | .openRoot => Handle
  | .openRelative _ _ => Handle
  | .readLink _ _ => Text
  | .close _ => Unit
  | .workingDirectory => Text

abbrev Reply (p : Primitive) : Type := Except Fault p.Result

inductive Kind where
  | openRoot
  | openRelative
  | readLink
  | close
  | workingDirectory
  deriving DecidableEq, Repr

def kind : Primitive → Kind
  | .openRoot => .openRoot
  | .openRelative _ _ => .openRelative
  | .readLink _ _ => .readLink
  | .close _ => .close
  | .workingDirectory => .workingDirectory

/-- The name that a question asks about, if it asks about one. -/
def name? : Primitive → Option Name
  | .openRelative _ name => some name
  | .readLink _ name => some name
  | .openRoot | .close _ | .workingDirectory => none

end Primitive

/-- A question that was put, and the answer that came back. -/
structure Call where
  question : Primitive
  reply : question.Reply

end PathResolution
