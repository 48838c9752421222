/-
A tree written out as text.

Each line tells of one node: the letter `d`, `f` or `l` for a directory, a file
or a link, a space, and the path from the root; a link's target follows after
a tab. Directories above a node need not be listed before it. A line of
another form, or one that contradicts an earlier line, says nothing.
-/
import PathResolution.Store

namespace PathResolution.Inventory

def withAbove (s : Store) (path : Text) : Store :=
  (s.makeDirectory (pathOf (names path).dropLast) true true).2

/-- The store with the node that a line tells of. -/
def addLine (s : Store) (line : Text) : Store :=
  match line with
  | kind :: space :: entry =>
    if space ≠ 0x20 then s
    else
      let path := entry.takeWhile (· != 0x09)
      if kind = 0x64 then (s.makeDirectory path true true).2
      else if kind = 0x66 then ((withAbove s path).makeFile path).2
      else if kind = 0x6C then
        ((withAbove s path).makeLink (entry.drop (path.length + 1)) path).2
      else s
  | _ => s

def load (s : Store) (inventory : Text) : Store := (partsAt 0x0A inventory).foldl addLine s

end PathResolution.Inventory
