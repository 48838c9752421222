/-
What a resolution tells an observer while it runs.
-/
import PathResolution.Existence
import PathResolution.Fault

namespace PathResolution

inductive LogLevel where
  | trace
  | debug
  deriving DecidableEq, Repr

def LogLevel.name : LogLevel → Text
  | .trace => text "TRACE"
  | .debug => text "DEBUG"

inductive LogEntry where
  /-- The resolution of a path, shown as it was given, starts with this many
  names to take. -/
  | started (shown : Text) (mode : ExistenceMode) (pending : Nat)
  | movedInto (name : Name)
  | movedUp
  | movedToRoot
  | followed (name : Name) (target : Text)
  /-- The last name is missing and kept. -/
  | keptMissing (name : Name)
  /-- A path, shown as it was given, has no canonical form. -/
  | unresolved (shown : Text) (code : Errno)
  deriving DecidableEq, Repr

def LogEntry.level : LogEntry → LogLevel
  | .started .. | .unresolved .. => .debug
  | _ => .trace

def LogEntry.message : LogEntry → Text
  | .started shown mode pending =>
    text "canonicalizing " ++ shown ++ text " (" ++ mode.name ++ text "), "
      ++ decimalNat pending ++ text " components queued"
  | .movedInto name => text "cursor moved into " ++ quoted name
  | .movedUp => text "cursor moved up"
  | .movedToRoot => text "cursor reset to root"
  | .followed name target => quoted name ++ text " -> " ++ quoted target
  | .keptMissing name => quoted name ++ text " does not exist, keeping it literally"
  | .unresolved shown code =>
    text "cannot canonicalize " ++ shown ++ text ": [errno " ++ decimal code ++ text "] "
      ++ Errno.message code

end PathResolution
