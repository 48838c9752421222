/-
Resolving behind an answer.

A canonical path can take the place of the path that it is the answer to, with
anything behind it: the loop is in the same state once it has taken either, and
the answer costs no more of the budget, since every committed name cost one. So
both ways end alike, unless the longer one runs out of its budget; and an answer
is its own answer.
-/
import PathResolution.Proofs.Resolution.Canonical
import PathResolution.Proofs.Resolution.Cutting

namespace PathResolution

-- =============================================================== courses

namespace Tree

variable {t : Tree} {mode : ExistenceMode} {maxLinkSize budget : Nat} {front trail : List Name}

/-- A trail can take the place of the names that led to it. -/
theorem WellFormed.course_trail_append (wf : t.WellFormed) (hfront : ∀ n ∈ front, IsName n)
    (h : t.course mode maxLinkSize budget front [] = .ok trail) (back : List Name)
    (hloop : ¬ LoopsOut (t.course mode maxLinkSize budget (front ++ back) [])) :
    t.course mode maxLinkSize budget (trail.reverse ++ back) []
      = t.course mode maxLinkSize budget (front ++ back) [] := by
  have hplain : ∀ n ∈ trail, IsPlainName n :=
    isPlainName_of_course _ _ _ hfront (fun _ hn => absurd hn List.not_mem_nil) h
  have hreaches : t.Reaches mode trail :=
    wf.reaches_of_course _ _ _ (.inl ⟨root, spelled_nil⟩) h
  obtain ⟨left, hleft, hcut⟩ := wf.course_append h
  obtain ⟨saved, rfl⟩ := Nat.exists_eq_add_of_le hleft
  have hshort : t.course mode maxLinkSize (trail.length + left + saved) (trail.reverse ++ back) []
      = t.arrive mode maxLinkSize (left + saved) back trail := by
    rw [← arrive_of_directory spelled_nil, Nat.add_assoc]
    exact wf.arrive_trail hplain hreaches back (left + saved)
  rw [hcut] at hloop
  rw [hcut, hshort]
  exact arrive_mono saved hloop

/-- A trail leads to itself. -/
theorem WellFormed.course_trail (wf : t.WellFormed) (hfront : ∀ n ∈ front, IsName n)
    (h : t.course mode maxLinkSize budget front [] = .ok trail) :
    t.course mode maxLinkSize budget trail.reverse [] = .ok trail := by
  have hloop : ¬ LoopsOut (t.course mode maxLinkSize budget (front ++ []) []) := by
    rw [List.append_nil, h]
    intro hloops
    obtain ⟨e, he, -⟩ := hloops
    cases he
  have hsame := wf.course_trail_append hfront h [] hloop
  rw [List.append_nil, List.append_nil, h] at hsame
  exact hsame

end Tree

-- ================================================================= paths

variable {w path rest : Text}

/-- What stands behind a path waits behind its names. -/
theorem queueOf_append (hpath : path ≠ []) (rest : Text) :
    queueOf w (path ++ separator :: rest) = queueOf w path ++ names rest := by
  have habsolute : isAbsolute (path ++ separator :: rest) = isAbsolute path := by
    cases path with
    | nil => exact absurd rfl hpath
    | cons c path => rfl
  unfold queueOf startingNames prependPath
  rw [habsolute]
  simp only [names_append, List.append_nil, List.append_assoc]

/-- An absolute path does not wait behind the working directory. -/
theorem queueOf_of_isAbsolute (habsolute : isAbsolute path = true) :
    queueOf w path = names path := by
  unfold queueOf startingNames prependPath
  rw [if_pos habsolute]
  simp

/-- The queue of a path that was written from names. -/
theorem queueOf_pathOf {ns : List Name} (hns : ∀ n ∈ ns, IsName n) :
    queueOf w (pathOf ns) = ns := by
  rw [queueOf_of_isAbsolute (isAbsolute_pathOf ns), names_pathOf hns]

theorem queueOf_trailPath {trail : List Name} (hplain : ∀ n ∈ trail, IsPlainName n) :
    queueOf w (trailPath trail) = trail.reverse :=
  queueOf_pathOf fun n hn => (hplain n (List.mem_reverse.mp hn)).toIsName

-- ============================================================== outcomes

/-- A resolution error with this number. -/
def FailsWith (a : Except Failure PathArgument) (code : Errno) : Prop :=
  ∃ e, a = .error (.resolution e) ∧ e.code = code

/-- The same path, or two resolution errors with the same number. -/
def EndsAlike (a b : Except Failure PathArgument) : Prop :=
  (∃ canonical, a = .ok canonical ∧ b = .ok canonical)
    ∨ ∃ code, FailsWith a code ∧ FailsWith b code

variable {s : Store} {limits : Limits} {env : Environment} {exact : Value} {mode : ExistenceMode}

/-- A resolution fails with the number under which its course's failure is
reported. -/
theorem Store.failsWith_of_course (hs : s.WellFormed) (hmode : exact.mode? env = .ok mode)
    {failure : Failure} {code : Errno}
    (h : s.tree.course mode limits.maxLinkSize limits.loopBudget
      (queueOf s.workingDirectory path) [] = .error failure)
    (hcode : failure.ReportedAs code) : FailsWith (s.resolved limits env path exact) code := by
  obtain ⟨e, he, hcode⟩ := hcode path
  refine ⟨e, ?_, hcode⟩
  rw [resolved_eq hs hmode]
  unfold Tree.canonical
  rw [h]
  exact congrArg _ he

/-- The course of a resolution that the budget does not end is not ended by the
budget. -/
theorem Store.not_loopsOut (hs : s.WellFormed) (hmode : exact.mode? env = .ok mode)
    (h : ¬ FailsWith (s.resolved limits env path exact) Errno.tooManyLinks) :
    ¬ Tree.LoopsOut (s.tree.course mode limits.maxLinkSize limits.loopBudget
      (queueOf s.workingDirectory path) []) := by
  intro hloops
  obtain ⟨e, he, hcode⟩ := hloops
  exact h (hcode ▸ failsWith_of_course hs hmode he (resolution_reported e))

/-- What a course ends with decides how a resolution ends; the path only says
where failures are reported that are not reported yet. -/
theorem Store.endsAlike_of_course_eq (hs : s.WellFormed) (hmode : exact.mode? env = .ok mode)
    {a b : Text}
    (h : s.tree.course mode limits.maxLinkSize limits.loopBudget (queueOf s.workingDirectory a) []
      = s.tree.course mode limits.maxLinkSize limits.loopBudget
          (queueOf s.workingDirectory b) []) :
    EndsAlike (s.resolved limits env a exact) (s.resolved limits env b exact) := by
  cases hcourse : s.tree.course mode limits.maxLinkSize limits.loopBudget
      (queueOf s.workingDirectory b) [] with
  | ok trail =>
      exact .inl ⟨_, (resolved_eq_ok_iff hs hmode).mpr ⟨trail, h.trans hcourse, rfl⟩,
        (resolved_eq_ok_iff hs hmode).mpr ⟨trail, hcourse, rfl⟩⟩
  | error failure =>
      obtain ⟨code, hcode⟩ := Tree.reported_of_course _ _ _ hcourse
      exact .inr ⟨code, failsWith_of_course hs hmode (h.trans hcourse) hcode,
        failsWith_of_course hs hmode hcourse hcode⟩

/-- What stands behind a path can be resolved behind its answer instead, with
the same end, unless the budget does not suffice for the path; and an answer is
its own answer. -/
theorem resolved_behind_answer (s : Store) (hs : s.Reachable) (limits : Limits)
    (env : Environment) (path rest : Text) (exact : Value) (canonical : Text)
    (h : s.resolved limits env path exact = .ok (.text canonical)) :
    (path ≠ [] →
        ¬ FailsWith (s.resolved limits env (path ++ separator :: rest) exact)
          Errno.tooManyLinks →
        EndsAlike (s.resolved limits env (canonical ++ separator :: rest) exact)
          (s.resolved limits env (path ++ separator :: rest) exact))
      ∧ s.resolved limits env canonical exact = .ok (.text canonical) := by
  obtain ⟨mode, hmode⟩ := mode_of_resolve_string h
  have wf := hs.wellFormed
  obtain ⟨trail, hcourse, rfl, -, hplain, -⟩ := Store.course_of_resolved wf hmode h
  have hfront : ∀ n ∈ queueOf s.workingDirectory path, IsName n := fun _ hn =>
    isName_of_mem_queueOf hn
  refine ⟨fun hpath hloop => ?_, ?_⟩
  · have hanswer : trailPath trail ≠ [] := List.cons_ne_nil _ _
    apply Store.endsAlike_of_course_eq wf hmode
    rw [queueOf_append hpath, queueOf_append hanswer, queueOf_trailPath hplain]
    apply wf.tree.course_trail_append hfront hcourse
    intro hloops
    rw [← queueOf_append hpath] at hloops
    obtain ⟨e, he, hcode⟩ := hloops
    apply hloop
    exact hcode ▸ Store.failsWith_of_course wf hmode he (resolution_reported e)
  · rw [Store.resolved_eq_ok_iff wf hmode]
    refine ⟨trail, ?_, rfl⟩
    rw [queueOf_trailPath hplain]
    exact wf.tree.course_trail hfront hcourse

/-- Climbing out of a link climbs out of what it leads to. -/
theorem resolved_behind_answer_climbing :
    EndsAlike (Store.sample.resolved .standard .empty (text "/d/../d/f/x") (.truth true))
        (Store.sample.resolved .standard .empty (text "../l/../d/f/x") (.truth true))
      ∧ Store.sample.resolved .standard .empty (text "/d") (.truth true)
        = .ok (.text (text "/d")) := by
  have h : Store.sample.resolved .standard .empty (text "../l") (.truth true)
      = .ok (.text (text "/d")) := rfl
  obtain ⟨hbehind, hself⟩ := resolved_behind_answer .sample Store.sample_reachable .standard .empty
    (text "../l") (text "../d/f/x") (.truth true) (text "/d") h
  refine ⟨hbehind (by decide) ?_, hself⟩
  intro hloops
  obtain ⟨e, he, hcode⟩ := hloops
  have hnotADirectory : Store.sample.resolved .standard .empty (text "../l/../d/f/x") (.truth true)
      = .error (.resolution ⟨Errno.notADirectory, some (.text (text "/d/f")),
          some (Tree.faultAt Errno.notADirectory (text "f"))⟩) := rfl
  have hsame := he.symm.trans hnotADirectory
  injection hsame with hsame
  injection hsame with hsame
  rw [hsame] at hcode
  cases hcode

end PathResolution
