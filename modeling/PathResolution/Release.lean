/-
Which release of the library this is, and what it offers.
-/
import PathResolution.Text.Basic

namespace PathResolution

/-- The version number. -/
def version : Text := text "0.1.0"

/-- The names that the library offers. -/
def exports : List Text :=
  ["abspath", "abspath_or_none", "CanonPathException", "ExistenceMode", "Filesystem",
    "MemoryFilesystem", "OSFilesystem", "patch_realpath", "ResolutionError", "Resolver",
    "SymlinkLoopError"].map text

end PathResolution
