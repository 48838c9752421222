/-
Looking a path up while following every link, as opening it does.

A link met on the way is looked up on its own, from the directory that holds
it or from the root, and the walk goes on from what was found. At most 40
lookups may be nested in one another. An error speaks of the path whose names
were being looked up, which below a link is the link's target.
-/
import PathResolution.Tree.Builders

namespace PathResolution.Tree

/-- How deep lookups of links may be nested. -/
def maxLinkDepth : Nat := 40

/-- Where a lookup starts: at the root for an absolute path. -/
def walkStart (d : DirId) (path : Text) : DirId := if isAbsolute path then root else d

/-- Looks the names of a path up from a node; `atLink` looks a link up from
the directory that holds it. -/
def walkNames (t : Tree) (atLink : DirId → Text → Except Fault Node) (path : Text) :
    Node → List Name → Except Fault Node
  | node, [] => .ok node
  | .directory d, name :: rest =>
    if name = dot then t.walkNames atLink path (.directory d) rest
    else if name = dotDot then t.walkNames atLink path (.directory (t.parent d)) rest
    else
      match t.entry? d name with
      | none => .error (faultAt Errno.noEntry path)
      | some (.link target) =>
        match atLink d target with
        | .error fault => .error fault
        | .ok node => t.walkNames atLink path node rest
      | some node => t.walkNames atLink path node rest
  | _, _ :: _ => .error (faultAt Errno.notADirectory path)

/-- Looks a path up from a directory; `depth` is how deep lookups may still be
nested. -/
def walkWithin (t : Tree) : (depth : Nat) → DirId → Text → Except Fault Node
  | 0, d, path =>
    t.walkNames (fun _ _ => .error (faultAt Errno.tooManyLinks path)) path
      (.directory (walkStart d path)) (names path)
  | depth + 1, d, path =>
    t.walkNames (fun holder target => t.walkWithin depth holder target) path
      (.directory (walkStart d path)) (names path)

/-- Looks a path up from a directory. -/
def walk (t : Tree) (d : DirId) (path : Text) : Except Fault Node :=
  t.walkWithin maxLinkDepth d path

end PathResolution.Tree
