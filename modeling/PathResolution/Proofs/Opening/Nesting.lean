/-
How many links an opening follows.

The limit of 40 links is one on nesting. Opening a path follows the links that
it meets as long as none of them is nested in 40 others, and gives up at the
first one that is (`opening_limits_nesting`). It never gives up if 40 links at
most lie on the way, since each link that another one is nested in was followed
before. But links that are met one after the other do not add up: with six
links, of which all but the first are passed twice by the next, an opening
follows 63 (`opening_follows_more_links`).
-/
import PathResolution.Proofs.Reachable
import PathResolution.Proofs.Tree.Itinerary

namespace PathResolution

-- =============================================================== opening

/-- Ends the opening of a path with what its lookup found. -/
def Store.opening (s : Store) (path : Text) : Except Fault Spot → Except Fault Handle × Store
  | .error fault => (.error fault, s)
  | .ok (.directory d) => (.ok (s.openDirectory d).1, (s.openDirectory d).2)
  | .ok (.file _ _) => (.error (Tree.faultAt Errno.notADirectory path), s)

/-- An opening from an open directory is a walk. -/
theorem Store.openRelative_eq {s : Store} {base : Handle} {d : DirId}
    (hd : s.handles.directory? base = some d) (path : Text) :
    s.openRelative base path = s.opening path (s.tree.walkSpot d path) := by
  rw [openRelative, hd]
  simp only [Tree.walk_eq_map_walkSpot]
  cases s.tree.walkSpot d path with
  | error fault => rfl
  | ok spot => cases spot <;> rfl

/-- An opening gives up on too many links if its walk does. -/
theorem Store.opening_tooManyLinks_iff (s : Store) (path : Text) (outcome : Except Fault Spot) :
    (∃ fault, (s.opening path outcome).1 = .error fault ∧ fault.code? = some Errno.tooManyLinks)
      ↔ ∃ fault, outcome = .error fault ∧ fault.code? = some Errno.tooManyLinks := by
  cases outcome with
  | error fault => simp [opening]
  | ok spot =>
      cases spot with
      | directory d => simp [opening]
      | file d name =>
          constructor
          · rintro ⟨fault, heq, hcode⟩
            cases heq
            cases hcode
          · rintro ⟨fault, heq, -⟩
            cases heq

/-- What the limit on links does to the opening of a path. The opening gives up
on too many links exactly if the lookup comes to a link that is nested in 40
others. So it does not if at most 40 links lie on the way. It follows all links
that the lookup comes to before that, however many they are, and ends as the
lookup does; if targets have `width` names at most, it follows no more links
for each name than a tree of that width has down to 40 levels. -/
theorem opening_limits_nesting (s : Store) (base : Handle) (d : DirId)
    (hd : s.handles.directory? base = some d) (path : Text) :
    ((∃ fault, (s.openRelative base path).1 = .error fault
          ∧ fault.code? = some Errno.tooManyLinks)
        ↔ ∃ n links last detour next, s.tree.travel n (.setOut d path) = some (links, last)
            ∧ s.tree.advance last = .followed detour next
            ∧ Tree.maxLinkDepth ≤ detour.leg.depth)
      ∧ ((∀ n links last, s.tree.travel n (.setOut d path) = some (links, last) →
            links.length ≤ Tree.maxLinkDepth) →
          ∀ fault, (s.openRelative base path).1 = .error fault →
            fault.code? ≠ some Errno.tooManyLinks)
      ∧ ∃ n links last, s.tree.travel n (.setOut d path) = some (links, last)
          ∧ (∀ detour ∈ links, detour.leg.depth < Tree.maxLinkDepth)
          ∧ (∀ width, (∀ d name target, s.tree.entry? d name = some (.link target) →
              (names target).length ≤ width) →
              links.length ≤ (names path).length * Tree.weight width Tree.maxLinkDepth)
          ∧ ((∃ outcome, s.tree.advance last = .ended outcome
                ∧ s.openRelative base path = s.opening path outcome)
              ∨ ∃ detour next, s.tree.advance last = .followed detour next
                ∧ s.openRelative base path
                  = (.error (Tree.faultAt Errno.tooManyLinks detour.leg.path), s)) := by
  obtain ⟨links, hfares⟩ := s.tree.walkSpot_fares d path
  rw [Store.openRelative_eq hd]
  have hnested := (s.opening_tooManyLinks_iff path _).trans hfares.tooManyLinks_iff
  refine ⟨hnested, ?_, ?_⟩
  · intro hfew fault hfault hcode
    obtain ⟨n, links', last, detour, next, htravel, hadvance, hlimit⟩ :=
      hnested.mp ⟨fault, hfault, hcode⟩
    have hdepth : detour.leg.depth ≤ links'.length := Tree.depth_le_length htravel hadvance
    -- the link itself is one more
    have hlength := hfew _ _ _ (Tree.travel_concat htravel hadvance)
    rw [List.length_append, List.length_singleton] at hlength
    omega
  · obtain ⟨hdepth, n, last, htravel, hend⟩ := hfares.travel
    refine ⟨n, links, last, htravel, hdepth, fun width hwidth => ?_, ?_⟩
    · have hlength := hfares.length_le hwidth
      rwa [show (Journey.setOut d path).ahead = legs 0 path from rfl,
        sum_map_legs fun depth => Tree.weight width (Tree.maxLinkDepth - depth)] at hlength
    · rcases hend with hended | ⟨detour, next, hadvance, -, houtcome⟩
      · exact .inl ⟨_, hended, rfl⟩
      · exact .inr ⟨detour, next, hadvance, by rw [houtcome]; rfl⟩

-- ============================================================== examples

/-- A link to the directory that holds it, and five more links, each of which
passes the one before it twice. The root is open. -/
def Store.doubling : Store :=
  (answer .openRoot ((Store.empty (text "/")).buildAll [
    .makeLink (text ".") (text "/l"),
    .makeLink (text "l/l") (text "/ll"),
    .makeLink (text "ll/ll") (text "/lll"),
    .makeLink (text "lll/lll") (text "/llll"),
    .makeLink (text "llll/llll") (text "/lllll"),
    .makeLink (text "lllll/lllll") (text "/llllll")])).2

/-- An opening that follows 63 links, one after the other, and succeeds. -/
theorem opening_follows_more_links :
    (∃ n links last,
        Store.doubling.tree.travel n (.setOut Tree.root (text "llllll")) = some (links, last)
          ∧ Store.doubling.tree.advance last = .ended (.ok (.directory Tree.root))
          ∧ links.length = 63 ∧ Tree.maxLinkDepth < links.length)
      ∧ (Store.doubling.openRelative 3 (text "llllll")).1 = .ok 4 := by
  refine ⟨?_, by decide +kernel⟩
  have htravel : (Store.doubling.tree.travel 95 (.setOut Tree.root (text "llllll"))).map
        (fun way => (way.1.length, Store.doubling.tree.advance way.2))
      = some (63, .ended (.ok (.directory Tree.root))) := by
    decide +kernel
  obtain ⟨⟨links, last⟩, hway, heq⟩ := Option.map_eq_some_iff.mp htravel
  obtain ⟨hlength, hended⟩ := Prod.mk.inj heq
  have hlength : links.length = 63 := hlength
  exact ⟨95, links, last, hway, hended, hlength, by rw [hlength]; decide⟩

/-- A link to itself, with the root open. -/
def Store.circle : Store :=
  (answer .openRoot ((Store.empty (text "/")).makeLink (text "l") (text "/l")).2).2

/-- A link to itself is followed until it is nested in 40 others, and no further. -/
theorem opening_limits_nesting_in_circle :
    (∃ fault, (Store.circle.openRelative 3 (text "l")).1 = .error fault
        ∧ fault.code? = some Errno.tooManyLinks)
      ∧ ∃ n links last detour next,
        Store.circle.tree.travel n (.setOut Tree.root (text "l")) = some (links, last)
          ∧ Store.circle.tree.advance last = .followed detour next
          ∧ Tree.maxLinkDepth ≤ detour.leg.depth := by
  have hopened : Store.circle.handles.directory? 3 = some Tree.root := by decide
  obtain ⟨hnested, -, -⟩ := opening_limits_nesting Store.circle 3 Tree.root hopened (text "l")
  have hgivesUp : ∃ fault, (Store.circle.openRelative 3 (text "l")).1 = .error fault
      ∧ fault.code? = some Errno.tooManyLinks :=
    ⟨Tree.faultAt Errno.tooManyLinks (text "l"), by decide +kernel, rfl⟩
  exact ⟨hgivesUp, hnested.mp hgivesUp⟩

end PathResolution
