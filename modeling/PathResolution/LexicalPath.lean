/-
Canonical paths by working on the text.

This is how a path is made canonical without holding directories open: the
names are taken left to right and put behind what has been found so far; `..`
takes the last name away again, whether or not it stands for a directory; a
name that is a link is replaced by what its target comes to, which is found
once and remembered. Nothing needs to exist. Links that lead in a circle are
left as they are, together with what follows them. A path that is too long is
not looked at, and links may not be found out inside each other without end.
-/
import PathResolution.Disk.Basic

namespace PathResolution.Lexical

-- ====================================================== texts as paths

/-- The path one level up. At the start of a relative path that is one more
`..`. -/
def up (path : Text) : Text :=
  if path.isEmpty then dotDot
  else
    let (head, last) := splitLast path
    if last = dotDot then joinPath (joinPath head dotDot) dotDot else head

/-- The names of a path with every `.` dropped and every `..` taken away
together with the name before it. A relative path keeps the `..` it starts
with, an absolute one does not. `kept` are the names before, innermost
first. -/
def normalNames (rooted : Bool) : (kept : List Name) → List Name → List Name
  | kept, [] => kept.reverse
  | kept, name :: rest =>
    if name = dot then normalNames rooted kept rest
    else if name ≠ dotDot then normalNames rooted (name :: kept) rest
    else match kept with
      | [] => normalNames rooted (if rooted then [] else [dotDot]) rest
      | last :: above =>
        if last = dotDot then normalNames rooted (dotDot :: kept) rest
        else normalNames rooted above rest

/-- A path in its shortest form on the text alone. Two slashes at the start
are kept, more than two are one. -/
def normal (path : Text) : Text :=
  let slashes := (path.takeWhile (· == separator)).length
  let body := joined (normalNames (slashes != 0) [] (names path))
  let whole := List.replicate (if slashes = 2 then 2 else min slashes 1) separator ++ body
  if whole.isEmpty then dot else whole

def absolute (workingDirectory : Except Fault Text) (path : Text) : Except Fault Text :=
  if isAbsolute path then .ok (normal path)
  else match workingDirectory with
    | .ok directory => .ok (normal (joinPath directory path))
    | .error fault => .error fault

-- ================================================================ looking

/-- What is seen where a path leads. -/
inductive Sight where
  | link (target : Text)
  | plain
  /-- Nothing that can be reached. -/
  | missing (fault : Fault)
  /-- The path cannot be asked about. -/
  | refused (fault : Fault)
  deriving Repr

/-- What is known of the links seen so far: the path that one comes to, or
nothing while that is being found out. -/
abbrev Seen := List ((Nat × Text) × Option Text)

/-- What a link is found again by. Paths that grow start alike, so their lengths
are compared first. -/
def seenAs (path : Text) : Nat × Text := (path.length, path)

/-- What taking names comes to: what is known of links, the path so far, and
whether all went well. -/
structure Found where
  seen : Seen
  path : Text
  complete : Bool
  deriving Repr

/-- Takes fields of a path one by one. `circle` is the fault of a link that
leads back to itself; `atLink` makes the target of a link canonical, seen from
the path that the link is in. -/
def takeFields (look : Text → Sight) (circle : Text → Fault) (strict : Bool)
    (atLink : Seen → (holder target : Text) → Except Fault Found) :
    Seen → (path : Text) → List Text → Except Fault Found
  | seen, path, [] => .ok ⟨seen, path, true⟩
  | seen, path, name :: rest =>
    if name.isEmpty || name == dot then takeFields look circle strict atLink seen path rest
    else if name == dotDot then takeFields look circle strict atLink seen (up path) rest
    else
      let here := joinPath path name
      match look here with
      | .refused fault => .error fault
      | .missing fault =>
        if strict then .error fault else takeFields look circle strict atLink seen here rest
      | .plain => takeFields look circle strict atLink seen here rest
      | .link target =>
        match seen.lookup (seenAs here) with
        | some (some known) => takeFields look circle strict atLink seen known rest
        | some none =>
          if strict then .error (circle here)
          else .ok ⟨seen, joinPath here (joined rest), false⟩
        | none =>
          match atLink ((seenAs here, none) :: seen) path target with
          | .error fault => .error fault
          | .ok found =>
            if found.complete then
              let seen := (seenAs here, some found.path) :: found.seen
              takeFields look circle strict atLink seen found.path rest
            else .ok { found with path := joinPath found.path (joined rest) }

/-- Makes a path canonical, seen from another path; at most `depth` paths are
being worked on inside each other. -/
def takePath (look : Text → Sight) (circle : Text → Fault) (strict : Bool) :
    (depth : Nat) → Seen → (holder path : Text) → Except Fault Found
  | 0, _, _, _ => .error .nestedTooDeeply
  | depth + 1, seen, holder, path =>
    let (start, rest) := if isAbsolute path then ([separator], path.tail) else (holder, path)
    takeFields look circle strict (takePath look circle strict depth) seen start (fields rest)

/-- The canonical form of a path. With `strict`, every name must exist and no
links may lead in a circle. -/
def canonical (look : Text → Sight) (circle : Text → Fault)
    (workingDirectory : Except Fault Text) (depth : Nat) (strict : Bool) (path : Text) :
    Except Fault Text :=
  match takePath look circle strict depth [] [] path with
  | .error fault => .error fault
  | .ok found => absolute workingDirectory found.path

-- ================================================================ bounds

structure Bounds where
  /-- The number of bytes that a path has to stay below to be looked at, if
  there is one. -/
  pathSize : Option Nat
  /-- How many paths may be worked on inside each other, if there is a bound. -/
  nesting : Option Nat
  deriving DecidableEq, Repr

/-- The bounds of the system that paths are looked at on. -/
def Bounds.standard : Bounds := ⟨some Disk.maxPathSize, some Disk.maxNesting⟩

def Bounds.exclude (bounds : Bounds) (path : Text) : Bool :=
  bounds.pathSize.any fun size => decide (size ≤ Disk.byteCount path)

end PathResolution.Lexical

namespace PathResolution.Disk

/-- What is seen on the disk where a path leads; `nul` is how a NUL in the path
is refused. A path that is too long leads nowhere, so a link at its end is not
seen. -/
def look (s : Disk) (bounds : Lexical.Bounds) (nul : Refusal) (path : Text) : Lexical.Sight :=
  match refusal? path with
  | some .embeddedNul => .refused (.refused nul)
  | some why => .refused (.refused why)
  | none =>
    if bounds.exclude path then .missing (faultAt Errno.nameTooLong path)
    else match targetFrom s.tree s.workingDirectory path with
      | .ok target => .link target
      | .error code =>
        if code = Errno.invalidArgument then .plain else .missing (faultAt code path)

/-- The fault of a link that leads back to itself, which is what following it
on the disk fails with. -/
def circleFault (s : Disk) (path : Text) : Fault :=
  match walk s.tree s.workingDirectory path with
  | .error code => faultAt code path
  | .ok _ => faultAt Errno.tooManyLinks path

def linkCount (t : Tree) : Nat :=
  (t.directories.flatMap fun directory => directory.entries).countP fun e =>
    match e.2 with
    | .link _ => true
    | _ => false

/-- More paths than can be worked on inside each other, unless links climb past
the root: every link can be named from the root, and from the working directory
by climbing some levels first. A link that climbs past the root and comes back
to itself is met under a longer path each time. -/
def lookDepth (t : Tree) : Nat := (linkCount t + 1) * (t.directories.length + 2) + 1

/-- The canonical form of a path on the disk, by working on its text. -/
def lexicalPath (s : Disk) (bounds : Lexical.Bounds) (nul : Refusal) (strict : Bool)
    (path : Text) : Except Fault Text :=
  Lexical.canonical (s.look bounds nul) s.circleFault s.workingPath
    (bounds.nesting.getD (lookDepth s.tree)) strict path

end PathResolution.Disk
