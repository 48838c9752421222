/-
What `.` and `..` say.

A `.` is dropped when it is taken, and `..` drops the name that was committed
last. Neither is nothing, though: a name that waits behind another one says that
the other one has to be a directory, and to wait is all that a `.` at the end
does. So a `.` between names can be left out (`Tree.WellFormed.course_dot`), and
a `.` or `..` at the end is taken from a directory only
(`Tree.arrive_last_of_directory`): a file or a missing name, which are fine at
the end of a path, are not fine before it. Where the names lead is what counts,
so `..` behind a link climbs out of the target, and at the root it stays there.
-/
import PathResolution.Proofs.Resolution.Composition
import PathResolution.Proofs.Resolution.Leniency

namespace PathResolution

-- =============================================================== courses

namespace Tree

variable {t : Tree} {mode : ExistenceMode} {maxLinkSize budget : Nat} {name : Name}
  {front back trail trail' : List Name} {d : DirId}

/-- Where other names wait anyway, a `.` makes no difference. -/
theorem arrive_dot (hback : back ≠ [])
    (hloop : ¬ LoopsOut (t.arrive mode maxLinkSize budget (dot :: back) trail)) :
    t.arrive mode maxLinkSize budget (dot :: back) trail
      = t.arrive mode maxLinkSize budget back trail := by
  obtain ⟨next, back, rfl⟩ := List.exists_cons_of_ne_nil hback
  cases hspelled : t.spelled trail with
  | none => simp only [arrive, hspelled]
  | some node =>
      cases node with
      | file => simp only [arrive, hspelled]
      | link target => simp only [arrive, hspelled]
      | directory d =>
          rw [arrive_of_directory hspelled] at hloop ⊢
          rw [arrive_of_directory hspelled]
          cases budget with
          | zero => exact absurd ⟨_, rfl, rfl⟩ hloop
          | succ budget =>
              rw [course, step_dot] at hloop ⊢
              exact (course_mono 1 budget _ trail hloop).symm

/-- A `.` in front of other names can be left out. -/
theorem WellFormed.course_dot (wf : t.WellFormed) (front : List Name) (hback : back ≠ [])
    (hloop : ¬ LoopsOut (t.course mode maxLinkSize budget (front ++ dot :: back) [])) :
    t.course mode maxLinkSize budget (front ++ dot :: back) []
      = t.course mode maxLinkSize budget (front ++ back) [] := by
  cases hfront : t.course mode maxLinkSize budget front [] with
  | error failure =>
      have hstands : t.Stands front [] := .inl ⟨root, spelled_nil⟩
      rw [wf.course_append_of_error _ budget front [] hstands hfront,
        wf.course_append_of_error _ budget front [] hstands hfront]
  | ok trail =>
      obtain ⟨left, -, hcut⟩ := wf.course_append hfront
      rw [hcut] at hloop ⊢
      rw [hcut]
      exact arrive_dot hback hloop

/-- The last name, taken from a directory. -/
theorem arrive_last_of_directory (hd : t.spelled trail = some (.directory d))
    (hstep : t.step mode maxLinkSize name [] trail = .onward [] trail')
    (hloop : ¬ LoopsOut (t.arrive mode maxLinkSize budget [name] trail)) :
    t.arrive mode maxLinkSize budget [name] trail = .ok trail' := by
  rw [arrive_of_directory hd] at hloop ⊢
  cases budget with
  | zero => exact absurd ⟨_, rfl, rfl⟩ hloop
  | succ budget =>
      rw [course, hstep]
      exact course_nil

/-- Names that lead to a file lead nowhere if another name waits. -/
theorem WellFormed.course_behind_file (wf : t.WellFormed)
    (h : t.course mode maxLinkSize budget front [] = .ok trail)
    (hfile : t.spelled trail = some .file) (hback : back ≠ []) :
    t.course mode maxLinkSize budget (front ++ back) []
      = .error (failureAt Errno.notADirectory trail) := by
  obtain ⟨left, -, hcut⟩ := wf.course_append h
  rw [hcut, arrive_of_file hfile hback]

/-- Names that leniently lead to what is missing lead nowhere if another name
waits, in either mode. -/
theorem WellFormed.course_behind_missing (wf : t.WellFormed)
    (h : t.course .missingOk maxLinkSize budget front [] = .ok trail)
    (hmissing : t.spelled trail = none) (hback : back ≠ []) :
    t.course mode maxLinkSize budget (front ++ back) []
      = .error (failureAt Errno.noEntry trail) := by
  obtain ⟨left, -, hcut⟩ := wf.course_append h
  apply wf.course_of_lenient
  rw [hcut, arrive_of_missing hmissing hback]

end Tree

-- ================================================================= names

namespace Store

variable {s : Store} {limits : Limits} {env : Environment} {exact : Value} {mode : ExistenceMode}
  {xs ys : List Name} {last : Name} {canonical : Text}

section

variable (hs : s.WellFormed) (hmode : exact.mode? env = .ok mode) (hxs : ∀ n ∈ xs, IsName n)

include hs hmode hxs

/-- The trail of an answer, and where it leads. -/
theorem trail_of_resolved
    (h : s.resolved limits env (pathOf xs) exact = .ok (.text canonical)) :
    ∃ trail, s.tree.course mode limits.maxLinkSize limits.loopBudget xs [] = .ok trail
      ∧ canonical = trailPath trail ∧ names canonical = trail.reverse
      ∧ s.tree.spelled trail = s.tree.node? (names canonical) := by
  obtain ⟨trail, hcourse, hcanonical, hnames, -, -⟩ := course_of_resolved hs hmode h
  rw [queueOf_pathOf hxs] at hcourse
  exact ⟨trail, hcourse, hcanonical, hnames, by rw [hnames]; rfl⟩

theorem endsAlike_without_dot (hys : ∀ n ∈ ys, IsName n) (hne : ys ≠ [])
    (hloop : ¬ FailsWith (s.resolved limits env (pathOf (xs ++ dot :: ys)) exact)
      Errno.tooManyLinks) :
    EndsAlike (s.resolved limits env (pathOf (xs ++ dot :: ys)) exact)
      (s.resolved limits env (pathOf (xs ++ ys)) exact) := by
  have hlong : ∀ n ∈ xs ++ dot :: ys, IsName n :=
    List.forall_mem_append.mpr ⟨hxs, List.forall_mem_cons.mpr ⟨Tree.isName_dot, hys⟩⟩
  have hshort : ∀ n ∈ xs ++ ys, IsName n := List.forall_mem_append.mpr ⟨hxs, hys⟩
  have hloops := not_loopsOut hs hmode hloop
  apply endsAlike_of_course_eq hs hmode
  rw [queueOf_pathOf hlong] at hloops ⊢
  rw [queueOf_pathOf hshort]
  exact hs.tree.course_dot xs hne hloops

end

section

variable (hs : s.WellFormed) (hmode : exact.mode? env = .ok mode)
  (hlast : ∀ n ∈ xs ++ [last], IsName n)

include hs hmode hlast

/-- Behind a directory, a name that only moves along the trail does so. -/
theorem resolved_behind_directory {d : DirId} {move : List Name → List Name}
    (hmove : ∀ trail, s.tree.step mode limits.maxLinkSize last [] trail = .onward [] (move trail))
    (h : s.resolved limits env (pathOf xs) exact = .ok (.text canonical))
    (hd : s.tree.node? (names canonical) = some (.directory d))
    (hloop : ¬ FailsWith (s.resolved limits env (pathOf (xs ++ [last])) exact)
      Errno.tooManyLinks) :
    ∃ trail, canonical = trailPath trail ∧ names canonical = trail.reverse
      ∧ s.resolved limits env (pathOf (xs ++ [last])) exact
        = .ok (.text (trailPath (move trail))) := by
  obtain ⟨trail, hcourse, hcanonical, hnames, hspelled⟩ :=
    trail_of_resolved hs hmode (List.forall_mem_append.mp hlast).1 h
  rw [hd] at hspelled
  obtain ⟨left, -, hcut⟩ := hs.tree.course_append hcourse
  have hloops := not_loopsOut hs hmode hloop
  rw [queueOf_pathOf hlast, hcut] at hloops
  refine ⟨trail, hcanonical, hnames, ?_⟩
  rw [resolved_eq_ok_iff hs hmode, queueOf_pathOf hlast, hcut]
  exact ⟨_, Tree.arrive_last_of_directory hspelled (hmove trail) hloops, rfl⟩

theorem failsWith_behind_file
    (h : s.resolved limits env (pathOf xs) exact = .ok (.text canonical))
    (hfile : s.tree.node? (names canonical) = some .file) :
    FailsWith (s.resolved limits env (pathOf (xs ++ [last])) exact) Errno.notADirectory := by
  obtain ⟨trail, hcourse, -, -, hspelled⟩ :=
    trail_of_resolved hs hmode (List.forall_mem_append.mp hlast).1 h
  refine failsWith_of_course hs hmode ?_ (failureAt_reported (by decide) (by decide) trail)
  rw [queueOf_pathOf hlast]
  exact hs.tree.course_behind_file hcourse (hspelled.trans hfile) (List.cons_ne_nil _ _)

theorem failsWith_behind_missing {env' : Environment} {lenient : Value}
    (hlenient : lenient.mode? env' = .ok .missingOk)
    (h : s.resolved limits env' (pathOf xs) lenient = .ok (.text canonical))
    (hmissing : s.tree.node? (names canonical) = none) :
    FailsWith (s.resolved limits env (pathOf (xs ++ [last])) exact) Errno.noEntry := by
  obtain ⟨trail, hcourse, -, -, hspelled⟩ :=
    trail_of_resolved hs hlenient (List.forall_mem_append.mp hlast).1 h
  refine failsWith_of_course hs hmode ?_ (failureAt_reported (by decide) (by decide) trail)
  rw [queueOf_pathOf hlast]
  exact hs.tree.course_behind_missing hcourse (hspelled.trans hmissing) (List.cons_ne_nil _ _)

end

end Store

/-- Between names, a `.` can be left out. Behind names that lead to a directory
it changes nothing, and `..` drops the last name of the answer, if it has one;
behind names that lead to a file or to what is missing, both of them fail. All
of this holds if the budget suffices. -/
theorem dots_behind_names (s : Store) (hs : s.Reachable) (limits : Limits) (env : Environment)
    (exact : Value) (mode : ExistenceMode) (hmode : exact.mode? env = .ok mode)
    (xs ys : List Name) (hxs : ∀ n ∈ xs, IsName n) (hys : ∀ n ∈ ys, IsName n) :
    let resolved := fun ns => s.resolved limits env (pathOf ns) exact
    (ys ≠ [] → ¬ FailsWith (resolved (xs ++ dot :: ys)) Errno.tooManyLinks →
        EndsAlike (resolved (xs ++ dot :: ys)) (resolved (xs ++ ys)))
      ∧ (∀ canonical d, resolved xs = .ok (.text canonical) →
        s.tree.node? (names canonical) = some (.directory d) →
        (¬ FailsWith (resolved (xs ++ [dot])) Errno.tooManyLinks →
            resolved (xs ++ [dot]) = .ok (.text canonical))
          ∧ (¬ FailsWith (resolved (xs ++ [dotDot])) Errno.tooManyLinks →
            resolved (xs ++ [dotDot]) = .ok (.text (pathOf (names canonical).dropLast))))
      ∧ (∀ canonical, resolved xs = .ok (.text canonical) →
        s.tree.node? (names canonical) = some .file →
        FailsWith (resolved (xs ++ [dot])) Errno.notADirectory
          ∧ FailsWith (resolved (xs ++ [dotDot])) Errno.notADirectory)
      ∧ ∀ env' lenient canonical, lenient.mode? env' = .ok .missingOk →
        s.resolved limits env' (pathOf xs) lenient = .ok (.text canonical) →
        s.tree.node? (names canonical) = none →
        FailsWith (resolved (xs ++ [dot])) Errno.noEntry
          ∧ FailsWith (resolved (xs ++ [dotDot])) Errno.noEntry := by
  intro resolved
  have wf := hs.wellFormed
  have hdot : ∀ n ∈ xs ++ [dot], IsName n :=
    List.forall_mem_append.mpr ⟨hxs, List.forall_mem_singleton.mpr Tree.isName_dot⟩
  have hdotDot : ∀ n ∈ xs ++ [dotDot], IsName n :=
    List.forall_mem_append.mpr ⟨hxs, List.forall_mem_singleton.mpr Tree.isName_dotDot⟩
  refine ⟨fun hne hloop => ?_, fun canonical d h hd => ⟨fun hloop => ?_, fun hloop => ?_⟩,
    fun canonical h hfile => ⟨?_, ?_⟩, fun env' lenient canonical hlenient h hmissing => ⟨?_, ?_⟩⟩
  · exact Store.endsAlike_without_dot wf hmode hxs hys hne hloop
  · obtain ⟨trail, rfl, -, hanswer⟩ :=
      Store.resolved_behind_directory wf hmode hdot (fun _ => Tree.step_dot) h hd hloop
    exact hanswer
  · obtain ⟨trail, -, hnames, hanswer⟩ :=
      Store.resolved_behind_directory wf hmode hdotDot (fun _ => Tree.step_dotDot) h hd hloop
    rw [hnames, List.dropLast_reverse]
    exact hanswer
  · exact Store.failsWith_behind_file wf hmode hdot h hfile
  · exact Store.failsWith_behind_file wf hmode hdotDot h hfile
  · exact Store.failsWith_behind_missing wf hmode hdot hlenient h hmissing
  · exact Store.failsWith_behind_missing wf hmode hdotDot hlenient h hmissing

/-- Behind a link, `..` climbs out of where it leads, and what is said of a file
or of a missing name is said of what the link leads to. -/
theorem dots_behind_names_of_link :
    let resolved := fun path => Store.sample.resolved .standard .empty (text path) (.truth false)
    EndsAlike (resolved "/l/./f") (resolved "/l/f") ∧ resolved "/l/.." = .ok (.text (text "/"))
      ∧ FailsWith (resolved "/l/f/.") Errno.notADirectory
      ∧ FailsWith (resolved "/l/g/..") Errno.noEntry := by
  intro resolved
  have hbetween : resolved "/l/./f" = .ok (.text (text "/d/f")) := rfl
  have hclimbed : resolved "/l/.." = .ok (.text (text "/")) := rfl
  have hl : IsName (text "l") := ⟨by decide, by decide⟩
  have hf : IsName (text "f") := ⟨by decide, by decide⟩
  have hg : IsName (text "g") := ⟨by decide, by decide⟩
  have hlaws := fun xs => dots_behind_names .sample Store.sample_reachable .standard .empty
    (.truth false) .missingOk rfl xs [text "f"]
  have hys : ∀ n ∈ [text "f"], IsName n := List.forall_mem_singleton.mpr hf
  obtain ⟨hdot, hdirectory, -, -⟩ := hlaws [text "l"] (List.forall_mem_singleton.mpr hl) hys
  obtain ⟨-, -, hfile, -⟩ := hlaws [text "l", text "f"]
    (List.forall_mem_cons.mpr ⟨hl, List.forall_mem_singleton.mpr hf⟩) hys
  obtain ⟨-, -, -, hmissing⟩ := hlaws [text "l", text "g"]
    (List.forall_mem_cons.mpr ⟨hl, List.forall_mem_singleton.mpr hg⟩) hys
  refine ⟨hdot (List.cons_ne_nil _ _) ?_, (hdirectory (text "/d") 1 rfl rfl).2 ?_,
    (hfile (text "/d/f") rfl rfl).1,
    (hmissing .empty (.truth false) (text "/d/g") rfl rfl rfl).2⟩
  · rintro ⟨e, he, -⟩
    cases hbetween.symm.trans he
  · rintro ⟨e, he, -⟩
    cases hclimbed.symm.trans he

end PathResolution
