/-
Which file a walk found.

A file has no number, so the node that a walk ends with does not say which file
it is. A spot does: it is a directory by its number, or a file by the directory
that holds it and its name there. `walkSpot` is the walk that keeps track of
spots, and forgetting which file was found gives the walk back
(`walk_eq_map_walkSpot`). Followed literally, names lead to a spot (`spot?`),
and in a well-formed tree one list of names at most leads to a given spot
(`WellFormed.spot?_inj`): a spot has one literal path.
-/
import PathResolution.Proofs.Tree.Shape
import PathResolution.Tree.Walk

namespace PathResolution

/-- A directory, or a file in the directory that holds it. -/
inductive Spot where
  | directory (id : DirId)
  | file (holder : DirId) (name : Name)
  deriving DecidableEq, Repr

/-- What stands there. -/
def Spot.node : Spot → Node
  | .directory id => .directory id
  | .file _ _ => .file

namespace Tree

variable {t : Tree} {d : DirId} {name : Name} {spot : Spot} {ns trail : List Name}

-- ================================================================= walks

/-- The walk along names, from a spot. -/
def walkSpotNames (t : Tree) (atLink : DirId → Text → Except Fault Spot) (path : Text) :
    Spot → List Name → Except Fault Spot
  | spot, [] => .ok spot
  | .directory d, name :: rest =>
    if name = dot then t.walkSpotNames atLink path (.directory d) rest
    else if name = dotDot then t.walkSpotNames atLink path (.directory (t.parent d)) rest
    else
      match t.entry? d name with
      | none => .error (faultAt Errno.noEntry path)
      | some (.directory c) => t.walkSpotNames atLink path (.directory c) rest
      | some .file => t.walkSpotNames atLink path (.file d name) rest
      | some (.link target) =>
        (atLink d target).bind fun spot => t.walkSpotNames atLink path spot rest
  | .file _ _, _ :: _ => .error (faultAt Errno.notADirectory path)

/-- The walk along a path, with lookups nested at most so deep. -/
def walkSpotWithin (t : Tree) : (depth : Nat) → DirId → Text → Except Fault Spot
  | 0, d, path =>
    t.walkSpotNames (fun _ _ => .error (faultAt Errno.tooManyLinks path)) path
      (.directory (walkStart d path)) (names path)
  | depth + 1, d, path =>
    t.walkSpotNames (fun holder target => t.walkSpotWithin depth holder target) path
      (.directory (walkStart d path)) (names path)

/-- The walk along a path from a directory, with the spot that it ends at. -/
def walkSpot (t : Tree) (d : DirId) (path : Text) : Except Fault Spot :=
  t.walkSpotWithin maxLinkDepth d path

theorem walkNames_eq_map {atLink : DirId → Text → Except Fault Node}
    {atLink' : DirId → Text → Except Fault Spot} {path : Text}
    (hlink : ∀ holder target, atLink holder target = (atLink' holder target).map Spot.node) :
    ∀ (ns : List Name) (spot : Spot), t.walkNames atLink path spot.node ns
      = (t.walkSpotNames atLink' path spot ns).map Spot.node := by
  intro ns
  induction ns with
  | nil =>
      intro spot
      cases spot <;> rfl
  | cons name ns ih =>
      intro spot
      cases spot with
      | file holder name' => rfl
      | directory d =>
          show t.walkNames atLink path (.directory d) (name :: ns) = _
          rw [walkNames, walkSpotNames]
          by_cases hdot : name = dot
          · rw [if_pos hdot, if_pos hdot]
            exact ih (.directory d)
          · rw [if_neg hdot, if_neg hdot]
            by_cases hdotDot : name = dotDot
            · rw [if_pos hdotDot, if_pos hdotDot]
              exact ih (.directory (t.parent d))
            · rw [if_neg hdotDot, if_neg hdotDot]
              cases t.entry? d name with
              | none => rfl
              | some node =>
                  cases node with
                  | directory c => exact ih (.directory c)
                  | file => exact ih (.file d name)
                  | link target =>
                      simp only [hlink]
                      cases atLink' d target with
                      | error fault => rfl
                      | ok spot => exact ih spot

/-- The walk is the walk along spots, forgetting which file it found. -/
theorem walk_eq_map_walkSpot (t : Tree) (d : DirId) (path : Text) :
    t.walk d path = (t.walkSpot d path).map Spot.node := by
  unfold walk walkSpot
  generalize maxLinkDepth = depth
  induction depth generalizing d path with
  | zero =>
      unfold walkWithin walkSpotWithin
      refine walkNames_eq_map ?_ (names path) (.directory (walkStart d path))
      intro _ _
      rfl
  | succ depth ih =>
      unfold walkWithin walkSpotWithin
      exact walkNames_eq_map ih (names path) (.directory (walkStart d path))

-- ======================================================= literal look-ups

/-- Where names lead literally from a spot. -/
def spotFrom? (t : Tree) : Spot → List Name → Option Spot
  | spot, [] => some spot
  | .directory d, name :: rest =>
    match t.entry? d name with
    | some (.directory c) => t.spotFrom? (.directory c) rest
    | some .file => t.spotFrom? (.file d name) rest
    | some (.link _) | none => none
  | .file _ _, _ :: _ => none

/-- Where names lead literally from the root. -/
def spot? (t : Tree) (ns : List Name) : Option Spot := t.spotFrom? (.directory root) ns

/-- The spot at the end of a trail. -/
inductive Rests (t : Tree) : (trail : List Name) → Spot → Prop
  | directory {trail : List Name} {d : DirId} : t.spelled trail = some (.directory d) →
      Rests t trail (.directory d)
  | file {trail : List Name} {d : DirId} {name : Name} :
      t.spelled trail = some (.directory d) → t.entry? d name = some .file →
      Rests t (name :: trail) (.file d name)

theorem rests_of_spotFrom? {start : Spot} (hstart : t.Rests trail start)
    (h : t.spotFrom? start ns = some spot) : t.Rests (ns.reverse ++ trail) spot := by
  induction ns generalizing start trail with
  | nil =>
      injection h with h
      exact h ▸ hstart
  | cons name ns ih =>
      rw [List.reverse_cons, List.append_assoc, List.singleton_append]
      cases hstart with
      | file hd hentry => cases h
      | @directory _ d hd =>
          rw [spotFrom?] at h
          split at h
          · next c hentry => exact ih (.directory ((spelled_cons hd name).trans hentry)) h
          · next hentry => exact ih (.file hd hentry) h
          · cases h
          · cases h

theorem spotFrom?_append (start : Spot) (front back : List Name) :
    t.spotFrom? start (front ++ back)
      = (t.spotFrom? start front).bind fun mid => t.spotFrom? mid back := by
  induction front generalizing start with
  | nil => rfl
  | cons name front ih =>
      cases start with
      | file holder name' => rfl
      | directory d =>
          rw [List.cons_append, spotFrom?, spotFrom?]
          split
          · exact ih _
          · exact ih _
          · rfl
          · rfl

theorem spot?_of_spelled (h : t.spelled trail = some (.directory d)) :
    t.spot? trail.reverse = some (.directory d) := by
  induction trail generalizing d with
  | nil =>
      injection h with h
      injection h with h
      rw [← h]
      rfl
  | cons name trail ih =>
      obtain ⟨holder, htrail, hentry⟩ := directory_of_spelled_cons h
      rw [List.reverse_cons, spot?, spotFrom?_append,
        show t.spotFrom? (.directory root) trail.reverse = _ from ih htrail, Option.bind_some,
        spotFrom?, hentry]
      rfl

/-- The end of a trail is where its names lead. -/
theorem spot?_eq_some_iff : t.spot? ns = some spot ↔ t.Rests ns.reverse spot := by
  constructor
  · intro h
    have hroot : t.Rests [] (.directory root) := .directory spelled_nil
    simpa using rests_of_spotFrom? hroot h
  · intro h
    rw [← List.reverse_reverse ns]
    generalize ns.reverse = trail at h
    cases h with
    | directory hd => exact spot?_of_spelled hd
    | @file trail d name hd hentry =>
        rw [List.reverse_cons, spot?, spotFrom?_append,
          show t.spotFrom? (.directory root) trail.reverse = _ from spot?_of_spelled hd,
          Option.bind_some, spotFrom?, hentry]
        rfl

theorem node?_of_spot? (h : t.spot? ns = some spot) : t.node? ns = some spot.node := by
  rw [spot?_eq_some_iff] at h
  rw [← List.reverse_reverse ns]
  generalize ns.reverse = trail at h
  cases h with
  | directory hd => exact hd
  | @file trail d name hd hentry => exact (spelled_cons hd name).trans hentry

/-- What names lead to is a spot, if it is no link. -/
theorem exists_spot_of_node? {node : Node} (h : t.node? ns = some node)
    (hlink : ∀ target, node ≠ .link target) :
    ∃ spot, t.spot? ns = some spot ∧ spot.node = node := by
  have hspelled : t.spelled ns.reverse = some node := (spelled_reverse ns).trans h
  simp only [spot?_eq_some_iff]
  generalize ns.reverse = trail at hspelled
  cases node with
  | directory d => exact ⟨.directory d, .directory hspelled, rfl⟩
  | link target => exact absurd rfl (hlink target)
  | file =>
      cases trail with
      | nil => cases hspelled
      | cons name trail =>
          obtain ⟨d, hd, hentry⟩ := directory_of_spelled_cons hspelled
          exact ⟨.file d name, .file hd hentry, rfl⟩

/-- One trail at most spells a directory. -/
theorem WellFormed.spelled_inj (wf : t.WellFormed) {trail' : List Name}
    (h : t.spelled trail = some (.directory d)) (h' : t.spelled trail' = some (.directory d)) :
    trail = trail' := by
  have hroot : ∀ name trail, t.spelled (name :: trail) ≠ some (.directory root) := by
    intro name trail hspelled
    obtain ⟨holder, -, hentry⟩ := directory_of_spelled_cons hspelled
    exact (wf.has_of_entry holder name root hentry).2 rfl
  induction trail generalizing d trail' with
  | nil =>
      cases trail' with
      | nil => rfl
      | cons name' trail' => exact absurd (h'.trans h.symm) (hroot name' trail')
  | cons name trail ih =>
      cases trail' with
      | nil => exact absurd (h.trans h'.symm) (hroot name trail)
      | cons name' trail' =>
          obtain ⟨holder, htrail, hentry⟩ := directory_of_spelled_cons h
          obtain ⟨holder', htrail', hentry'⟩ := directory_of_spelled_cons h'
          obtain rfl : holder = holder' :=
            (wf.parent_of_entry holder name d hentry).symm.trans
              (wf.parent_of_entry holder' name' d hentry')
          rw [wf.name_unique holder name name' d hentry hentry', ih htrail htrail']

/-- One list of names at most leads to a spot. -/
theorem WellFormed.spot?_inj (wf : t.WellFormed) {ns' : List Name} (h : t.spot? ns = some spot)
    (h' : t.spot? ns' = some spot) : ns = ns' := by
  rw [spot?_eq_some_iff] at h h'
  have hreverse : ns.reverse = ns'.reverse := by
    generalize ns.reverse = trail at h ⊢
    generalize ns'.reverse = trail' at h' ⊢
    cases h with
    | directory hd =>
        cases h' with
        | directory hd' => exact wf.spelled_inj hd hd'
    | file hd _ =>
        cases h' with
        | file hd' _ => rw [wf.spelled_inj hd hd']
  exact List.reverse_inj.mp hreverse

end Tree

end PathResolution
