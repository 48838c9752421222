/-
Links with an empty target.

A link that points to nothing ends a resolution: it fails because no such file
exists, whatever waits behind the link. An opening goes past the same link. The
empty target has no names, so its lookup ends where it starts, in the directory
that holds the link, and the opening goes on from there as if the link were not
on the way (`empty_target_ends_resolution_not_opening`).

Both are read off the journey to the link. A journey whose links can all be
followed shifts the queue of a resolution, leg by leg
(`WellFormed.shifts_of_travel`), and a walk fares on from wherever its journey
comes to (`Fares.after`).
-/
import PathResolution.Proofs.Opening.Nesting
import PathResolution.Proofs.Resolution.WalkAgreement

namespace PathResolution

namespace Tree

variable {t : Tree} {trail : List Name} {n : Nat} {j next last : Journey} {detour : Detour}
  {links : List Detour}

/-- A leg that leads on shifts the queue. -/
theorem WellFormed.shifts_of_onward (wf : t.WellFormed) (hrests : t.Rests trail j.spot)
    (hadvance : t.advance j = .onward next) :
    ∃ trail', t.Rests trail' next.spot ∧ ∀ mode maxLinkSize,
      t.Shifts mode maxLinkSize 1 (j.ahead.map Leg.name) trail (next.ahead.map Leg.name) trail' := by
  have htakes := t.takes j
  rw [hadvance] at htakes
  cases htakes with
  | dot hname =>
      cases hrests with
      | directory hd =>
          refine ⟨_, .directory hd, fun mode maxLinkSize => ?_⟩
          rw [List.map_cons, hname]
          exact wf.shifts_of_step hd step_dot _
  | dotDot hname =>
      cases hrests with
      | directory hd =>
          refine ⟨_, .directory (wf.spelled_tail hd), fun mode maxLinkSize => ?_⟩
          rw [List.map_cons, hname]
          exact wf.shifts_of_step hd step_dotDot _
  | directory hdot hdotDot hentry =>
      cases hrests with
      | directory hd =>
          exact ⟨_, .directory ((spelled_cons hd _).trans hentry), fun mode maxLinkSize =>
            wf.shifts_of_step hd (step_directory hd hdot hdotDot hentry) _⟩
  | file hdot hdotDot hentry =>
      cases hrests with
      | directory hd =>
          exact ⟨_, .file hd hentry, fun mode maxLinkSize =>
            wf.shifts_of_step hd (step_file hd hdot hdotDot hentry) _⟩

/-- A link that can be followed shifts the queue. -/
theorem WellFormed.shifts_of_followed (wf : t.WellFormed) (hrests : t.Rests trail j.spot)
    (hadvance : t.advance j = .followed detour next) :
    ∃ trail', t.Rests trail' next.spot ∧ ∀ mode maxLinkSize, Followable maxLinkSize detour.target →
      t.Shifts mode maxLinkSize 1 (j.ahead.map Leg.name) trail (next.ahead.map Leg.name) trail' := by
  have htakes := t.takes j
  rw [hadvance] at htakes
  cases htakes with
  | @link d leg rest target hdot hdotDot hentry =>
      cases hrests with
      | directory hd =>
          refine ⟨_, .directory (spelled_linkTrail hd target), fun mode maxLinkSize hfollow => ?_⟩
          have hstep : t.step mode maxLinkSize leg.name [] trail
              = .onward (names target ++ []) (linkTrail target trail) := by
            rw [step_link hd hdot hdotDot hentry, refusal?_of_followable hfollow]
          have hlegs : (legs (leg.depth + 1) target ++ rest).map Leg.name
              = names target ++ [] ++ rest.map Leg.name := by
            rw [List.map_append, map_name_legs, List.append_nil]
          rw [List.map_cons, hlegs]
          exact wf.shifts_of_step hd hstep _

/-- A journey whose links can all be followed shifts the queue to the legs that
lie ahead of it then. -/
theorem WellFormed.shifts_of_travel (wf : t.WellFormed) (hrests : t.Rests trail j.spot)
    (htravel : t.travel n j = some (links, last)) :
    ∃ trail', t.Rests trail' last.spot ∧ ∀ mode maxLinkSize,
      (∀ detour ∈ links, Followable maxLinkSize detour.target) →
      t.Shifts mode maxLinkSize n (j.ahead.map Leg.name) trail (last.ahead.map Leg.name) trail' := by
  induction n generalizing j trail links with
  | zero =>
      cases htravel
      exact ⟨trail, hrests, fun _ _ _ => Shifts.refl⟩
  | succ n ih =>
      rcases travel_succ htravel with
        ⟨next, hadvance, hnext⟩ | ⟨detour, next, rest, hadvance, rfl, hnext⟩
      · obtain ⟨mid, hmid, hfirst⟩ := wf.shifts_of_onward hrests hadvance
        obtain ⟨trail', htrail', hshifts⟩ := ih hmid hnext
        refine ⟨trail', htrail', fun mode maxLinkSize hfollow => ?_⟩
        rw [Nat.add_comm]
        exact (hfirst mode maxLinkSize).trans (hshifts mode maxLinkSize hfollow)
      · obtain ⟨mid, hmid, hfirst⟩ := wf.shifts_of_followed hrests hadvance
        obtain ⟨trail', htrail', hshifts⟩ := ih hmid hnext
        refine ⟨trail', htrail', fun mode maxLinkSize hfollow => ?_⟩
        obtain ⟨hhere, hlater⟩ := List.forall_mem_cons.mp hfollow
        rw [Nat.add_comm]
        exact (hfirst mode maxLinkSize hhere).trans (hshifts mode maxLinkSize hlater)

/-- A queue breaks at a link with an empty target, in either mode. -/
theorem WellFormed.breaks_of_empty_target (wf : t.WellFormed) {d : DirId} {leg : Leg}
    {rest : List Leg} (htrail : t.spelled trail = some (.directory d)) (hdot : leg.name ≠ dot)
    (hdotDot : leg.name ≠ dotDot) (hentry : t.entry? d leg.name = some (.link []))
    (mode : ExistenceMode) (maxLinkSize : Nat) :
    t.Breaks mode maxLinkSize 1 ((leg :: rest).map Leg.name) trail
      (· = .resolution (.at Errno.noEntry (trailPath (leg.name :: trail)))) := by
  refine wf.breaks_of_step htrail ?_ (step_link htrail hdot hdotDot hentry) _
  rfl

/-- A walk goes past a link with an empty target, as if it were not there. -/
theorem Fares.past_empty_target {limit : Nat} {d : DirId} {leg : Leg} {rest : List Leg}
    {outcome : Except Fault Spot} (hdot : leg.name ≠ dot) (hdotDot : leg.name ≠ dotDot)
    (hentry : t.entry? d leg.name = some (.link [])) (hlimit : leg.depth < limit)
    (h : t.Fares limit ⟨.directory d, leg :: rest⟩ links outcome) :
    ∃ more, t.Fares limit ⟨.directory d, rest⟩ more outcome := by
  have hadvance : t.advance ⟨.directory d, leg :: rest⟩
      = .followed ⟨leg, []⟩ ⟨.directory d, rest⟩ := advance_link hdot hdotDot hentry
  rcases h.of_followed hadvance with ⟨-, more, -, hmore⟩ | ⟨hdeep, -⟩
  · exact ⟨more, hmore⟩
  · exact absurd hlimit (Nat.not_lt_of_le hdeep)

end Tree

-- =========================================================== both lookups

/-- A lookup of an absolute path that comes to a link with an empty target, with
no link on the way that is nested in 40 others. A resolution fails there, in
either mode, because there is no such file, if it can follow the links before
and its budget has not run out. An opening goes past the link and on from the
directory that holds it, with the names that are left; and if none is left, it
opens that directory. -/
theorem empty_target_ends_resolution_not_opening (s : Store) (hs : s.Reachable) (path : Text)
    (habsolute : isAbsolute path = true) (n : Nat) (links : List Detour) (d : DirId) (leg : Leg)
    (rest : List Leg)
    (htravel : s.tree.travel n (.setOut Tree.root path)
      = some (links, ⟨.directory d, leg :: rest⟩))
    (hentry : s.tree.entry? d leg.name = some (.link []))
    (hlinks : ∀ detour ∈ links, detour.leg.depth < Tree.maxLinkDepth)
    (hleg : leg.depth < Tree.maxLinkDepth) :
    (∃ trail, s.tree.spelled trail = some (.directory d)
        ∧ ∀ (limits : Limits) (env : Environment) (exact : Value) (mode : ExistenceMode),
          exact.mode? env = .ok mode → n < limits.loopBudget →
          (∀ detour ∈ links, Followable limits.maxLinkSize detour.target) →
          s.resolved limits env path exact
            = .error (.resolution (.at Errno.noEntry (trailPath (leg.name :: trail)))))
      ∧ ∀ base held, s.handles.directory? base = some held →
        (∃ more outcome, s.tree.Fares Tree.maxLinkDepth ⟨.directory d, rest⟩ more outcome
            ∧ s.openRelative base path = s.opening path outcome)
          ∧ (rest = [] → ∃ new, (s.openRelative base path).1 = .ok new
              ∧ s.handles.directory? new = none
              ∧ (s.openRelative base path).2.handles.directory? new = some d) := by
  have wf := hs.wellFormed
  obtain ⟨-, hdot, hdotDot⟩ := hs.grows.isPlainName_of_link hentry
  refine ⟨?_, fun base held hbase => ?_⟩
  · have hstart : s.tree.Rests [] (Journey.setOut Tree.root path).spot := by
      rw [Journey.setOut, Tree.walkStart, if_pos habsolute]
      exact .directory Tree.spelled_nil
    obtain ⟨trail, hrests, hshifts⟩ := wf.tree.shifts_of_travel hstart htravel
    cases hrests with
    | directory hd =>
        refine ⟨trail, hd, fun limits env exact mode hmode hbudget hfollow => ?_⟩
        have hbreaks := (hshifts mode limits.maxLinkSize hfollow).breaks
          (wf.tree.breaks_of_empty_target hd hdot hdotDot hentry mode limits.maxLinkSize)
        obtain ⟨left, hleft⟩ := Nat.exists_eq_add_of_le hbudget
        obtain ⟨failure, hcourse, rfl⟩ := hbreaks [] left
        rw [show (Journey.setOut Tree.root path).ahead = legs 0 path from rfl, map_name_legs,
          Tree.arrive_root, ← Nat.succ_eq_add_one, ← hleft,
          ← queueOf_of_isAbsolute (w := s.workingDirectory) habsolute] at hcourse
        exact (Store.resolved_eq_error_iff wf hmode).mpr ⟨_, hcourse, rfl⟩
  · obtain ⟨all, hfares⟩ := s.tree.walkSpot_fares held path
    rw [Journey.setOut_of_isAbsolute habsolute held] at hfares
    have hpast : ∃ more, s.tree.Fares Tree.maxLinkDepth ⟨.directory d, rest⟩ more
        (s.tree.walkSpot held path) := by
      rcases hfares.after htravel with ⟨more, -, hmore⟩ | ⟨⟨deep, hmem, hdeep⟩, -⟩
      · exact hmore.past_empty_target hdot hdotDot hentry hleg
      · exact absurd (hlinks deep hmem) (Nat.not_lt_of_le hdeep)
    rw [Store.openRelative_eq hbase]
    obtain ⟨more, hmore⟩ := hpast
    refine ⟨⟨more, _, hmore, rfl⟩, fun hrest => ?_⟩
    subst hrest
    rw [hmore.of_ended rfl]
    exact ⟨_, rfl, wf.handles.directory?_next, wf.handles.directory?_add_next d⟩

/-- A directory with an empty link in it, and beside it a link to that link. The
root is open. -/
def Store.emptyTarget : Store :=
  (answer .openRoot ((Store.empty (text "/")).buildAll [
    .makeDirectory (text "/d") false false,
    .makeLink [] (text "/d/e"),
    .makeLink (text "d/e") (text "/l")])).2

/-- Behind another link, the empty link ends the resolution, and the opening
opens the directory that holds it. -/
theorem empty_target_ends_resolution_not_opening_behind_link :
    (∀ exact, Store.emptyTarget.resolved .standard .empty (text "/l") (.truth exact)
        = .error (.resolution (.at Errno.noEntry (text "/d/e"))))
      ∧ ∃ new, (Store.emptyTarget.openRelative 3 (text "/l")).1 = .ok new
        ∧ Store.emptyTarget.handles.directory? new = none
        ∧ (Store.emptyTarget.openRelative 3 (text "/l")).2.handles.directory? new = some 1 := by
  have hreachable : Store.emptyTarget.Reachable :=
    .answer _ ((Store.Reachable.empty _).buildAll _).1
  have htravel : Store.emptyTarget.tree.travel 2 (.setOut Tree.root (text "/l"))
      = some ([⟨⟨text "l", text "/l", 0⟩, text "d/e"⟩],
          ⟨.directory 1, [⟨text "e", text "d/e", 1⟩]⟩) := by decide
  obtain ⟨⟨trail, htrail, hresolved⟩, hopening⟩ := empty_target_ends_resolution_not_opening
    .emptyTarget hreachable (text "/l") rfl 2 _ _ _ _ htravel (by decide) (by decide) (by decide)
  have hfollow : ∀ detour ∈ [(⟨⟨text "l", text "/l", 0⟩, text "d/e"⟩ : Detour)],
      Followable Limits.standard.maxLinkSize detour.target := by
    intro detour hmem
    obtain rfl := List.mem_singleton.mp hmem
    exact ⟨by decide, _, rfl, by decide⟩
  have hspelled : trail = [text "d"] :=
    hreachable.wellFormed.tree.spelled_inj htrail (by decide)
  subst hspelled
  refine ⟨fun exact => ?_, (hopening 3 Tree.root (by decide)).2 rfl⟩
  cases exact with
  | false => exact hresolved .standard .empty (.truth false) _ rfl (by decide) hfollow
  | true => exact hresolved .standard .empty (.truth true) _ rfl (by decide) hfollow

/-- An empty link in the root, which is open. -/
def Store.emptyLink : Store :=
  (answer .openRoot ((Store.empty (text "/")).makeLink [] (text "/e")).2).2

/-- The path of an empty link is opened, and cannot be resolved in either mode. -/
theorem empty_target_opened :
    Store.emptyLink.tree.travel 0 (.setOut Tree.root (text "/e"))
        = some ([], ⟨.directory Tree.root, [⟨text "e", text "/e", 0⟩]⟩)
      ∧ Store.emptyLink.tree.entry? Tree.root (text "e") = some (.link [])
      ∧ (∀ exact, FailsWith
          (Store.emptyLink.resolved .standard .empty (text "/e") (.truth exact)) Errno.noEntry)
      ∧ (Store.emptyLink.openRelative 3 (text "/e")).1 = .ok 4
      ∧ (Store.emptyLink.openRelative 3 (text "/e")).2.handles.handles
        = insert 4 Store.emptyLink.handles.handles := by
  refine ⟨by decide, by decide, fun exact => ?_, by decide, by decide⟩
  cases exact <;> exact ⟨_, rfl, rfl⟩

end PathResolution
