/-
Everything in a tree, in order.

A directory comes before what is in it, and entries come in the order of
their names, compared code point by code point.
-/
import PathResolution.Tree.Basic

namespace PathResolution.Tree

/-- Whether a name comes before another one, or is the same. -/
def nameLE : Name → Name → Bool
  | [], _ => true
  | _ :: _, [] => false
  | a :: as, b :: bs => decide (a < b) || (a == b && nameLE as bs)

/-- Lists what is in a directory, to a given depth. `above` are the names that
lead there, innermost first. -/
def listFrom (t : Tree) : (depth : Nat) → List Name → DirId → List (Text × Node)
  | 0, _, _ => []
  | depth + 1, above, d =>
    match t.directories[d]? with
    | none => []
    | some directory =>
      (directory.entries.mergeSort fun a b => nameLE a.1 b.1).flatMap fun (name, node) =>
        (pathOf (name :: above).reverse, node) ::
          match node with
          | .directory child => t.listFrom depth (name :: above) child
          | _ => []

/-- Lists every node but the root, with its path. No directory lies deeper
than there are directories. -/
def listing (t : Tree) : List (Text × Node) :=
  t.listFrom t.directories.length [] root

end PathResolution.Tree
