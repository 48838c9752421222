/-
A link gives way to its target.

Where a link is met, its target can stand in its place: in the path itself if
the target is relative, and instead of all that comes before it if the target is
absolute. A resolution does just that when it takes the link, with the target's
names in front of those that wait (`Tree.WellFormed.course_link`), so the two
paths only differ in what they cost: the one without the link costs less, and
ends alike unless the other one runs out of its budget.

The directory that holds the link has to be found in the strict sense. What is
found strictly is found leniently too, so it does not matter in which mode the
two paths are resolved.
-/
import PathResolution.Proofs.Resolution.Composition
import PathResolution.Proofs.Resolution.Leniency

namespace PathResolution

-- =============================================================== courses

namespace Tree

variable {t : Tree} {mode : ExistenceMode} {maxLinkSize budget : Nat} {d : DirId} {name : Name}
  {front trail : List Name} {target : Text}

/-- The names of a target that is followed can be written where the link is
taken, in front of what waits behind it. -/
theorem WellFormed.course_link (wf : t.WellFormed)
    (hfront : t.course mode maxLinkSize budget front [] = .ok trail)
    (htrail : t.spelled trail = some (.directory d)) (hname : IsPlainName name)
    (hentry : t.entry? d name = some (.link target))
    (hfollowed : refusal? maxLinkSize name target trail = none) (back : List Name)
    (hloop : ¬ LoopsOut (t.course mode maxLinkSize budget (front ++ name :: back) [])) :
    t.course mode maxLinkSize budget (front ++ name :: back) []
      = t.course mode maxLinkSize budget
          ((if isAbsolute target then [] else front) ++ (names target ++ back)) [] := by
  obtain ⟨left, hleft, hcut⟩ := wf.course_append hfront
  rw [hcut, arrive_of_directory htrail] at hloop ⊢
  cases left with
  | zero => exact absurd ⟨_, rfl, rfl⟩ hloop
  | succ left =>
      have htaken : t.course mode maxLinkSize (left + 1) (name :: back) trail
          = t.course mode maxLinkSize left (names target ++ back) (linkTrail target trail) := by
        rw [course, step_link htrail hname.ne_dot hname.ne_dotDot hentry, hfollowed]
      rw [htaken] at hloop ⊢
      by_cases habsolute : isAbsolute target = true
      · rw [linkTrail, if_pos habsolute] at hloop ⊢
        rw [if_pos habsolute, List.nil_append]
        obtain ⟨spent, rfl⟩ : ∃ spent, budget = left + spent := ⟨budget - left, by omega⟩
        exact (course_mono spent left _ _ hloop).symm
      · rw [linkTrail, if_neg habsolute] at hloop ⊢
        rw [if_neg habsolute, hcut, arrive_of_directory htrail]
        exact (course_mono 1 left _ _ hloop).symm

end Tree

-- ================================================================= paths

/-- The names of a path that leads through a name and on. -/
theorem queueOf_through {w path : Text} {name : Name} (hpath : path ≠ []) (hname : IsName name)
    (rest : Text) :
    queueOf w (path ++ separator :: (name ++ separator :: rest))
      = queueOf w path ++ name :: names rest := by
  rw [queueOf_append hpath, names_append, hname.names_eq, List.singleton_append]

/-- In a path that leads through a link, the target can be written instead: in
the place of the link if it is relative, and in the place of the link and all
that comes before it if it is absolute. Both paths end alike, unless the budget
does not suffice for the one with the link. -/
theorem link_gives_way_to_target (s : Store) (hs : s.Reachable) (limits : Limits)
    (env : Environment) (strict exact : Value) (mode : ExistenceMode)
    (hstrict : strict.mode? env = .ok .exact) (hmode : exact.mode? env = .ok mode)
    (path canonical : Text) (d : DirId) (name : Name) (target rest : Text) (hpath : path ≠ [])
    (hfound : s.resolved limits env path strict = .ok (.text canonical))
    (hdirectory : s.tree.node? (names canonical) = some (.directory d))
    (hlink : s.tree.entry? d name = some (.link target))
    (htarget : Followable limits.maxLinkSize target)
    (hloop : ¬ FailsWith
      (s.resolved limits env (path ++ separator :: (name ++ separator :: rest)) exact)
      Errno.tooManyLinks) :
    (isAbsolute target = false →
        EndsAlike (s.resolved limits env (path ++ separator :: (name ++ separator :: rest)) exact)
          (s.resolved limits env (path ++ separator :: (target ++ separator :: rest)) exact))
      ∧ (isAbsolute target = true →
        EndsAlike (s.resolved limits env (path ++ separator :: (name ++ separator :: rest)) exact)
          (s.resolved limits env (target ++ separator :: rest) exact)) := by
  have wf := hs.wellFormed
  have hname : IsPlainName name := hs.grows.isPlainName_of_link hlink
  obtain ⟨trail, hcourse, -, hnames, -, -⟩ := Store.course_of_resolved wf hstrict hfound
  have htrail : s.tree.spelled trail = some (.directory d) := by
    rw [Tree.spelled, ← hnames, hdirectory]
  have hfollowed : refusal? limits.maxLinkSize name target trail = none :=
    refusal?_of_followable htarget name trail
  have hloops := Store.not_loopsOut wf hmode hloop
  rw [queueOf_through hpath hname.toIsName] at hloops
  have hsame := wf.tree.course_link (wf.tree.course_of_strict hcourse) htrail hname hlink
    hfollowed (names rest) hloops
  refine ⟨fun hrelative => ?_, fun habsolute => ?_⟩
  · apply Store.endsAlike_of_course_eq wf hmode
    rw [hrelative, if_neg (Bool.false_ne_true)] at hsame
    rw [queueOf_through hpath hname.toIsName, queueOf_append hpath, names_append, hsame]
  · apply Store.endsAlike_of_course_eq wf hmode
    rw [if_pos habsolute] at hsame
    rw [queueOf_through hpath hname.toIsName, queueOf_append htarget.1,
      queueOf_of_isAbsolute habsolute, hsame]
    rfl

/-- Climbing behind a link climbs out of where the target leads. -/
theorem link_gives_way_to_target_climbing :
    let linked := text "/l/.." ++ separator :: (text "l" ++ separator :: text "../l/f")
    let written := text "/l/.." ++ separator :: (text "d" ++ separator :: text "../l/f")
    EndsAlike (Store.sample.resolved .standard .empty linked (.truth false))
      (Store.sample.resolved .standard .empty written (.truth false)) := by
  intro linked written
  have hfound : Store.sample.resolved .standard .empty (text "/l/..") (.truth true)
      = .ok (.text (text "/")) := rfl
  have hlinked : Store.sample.resolved .standard .empty linked (.truth false)
      = .ok (.text (text "/d/f")) := rfl
  have htarget : Followable Limits.standard.maxLinkSize (text "d") :=
    ⟨by decide, [0x64], rfl, by decide⟩
  refine (link_gives_way_to_target .sample Store.sample_reachable .standard .empty (.truth true)
    (.truth false) .missingOk rfl rfl (text "/l/..") (text "/") Tree.root (text "l") (text "d")
    (text "../l/f") (by decide) hfound rfl rfl htarget ?_).1 rfl
  rintro ⟨e, he, -⟩
  cases hlinked.symm.trans he

end PathResolution
