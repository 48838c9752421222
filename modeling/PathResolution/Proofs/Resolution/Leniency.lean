/-
What the lenient mode is lenient about.

The mode is asked for in one place: where a name is missing and no other name
waits. Until then a strict and a lenient resolution of a path take the same
names in the same directories, and there one of them fails and the other one is
done (`Tree.ModesEnd`). So the modes differ on nothing but a missing last name,
be it the last one of the path or of a target at the end of a chain of links.
-/
import PathResolution.Proofs.Resolution.CursorAndTrail

namespace PathResolution

-- =============================================================== courses

namespace Tree

variable {t : Tree} {maxLinkSize : Nat} {d : DirId} {name : Name} {trail : List Name}

/-- How a strict and a lenient course of the same names end: alike, or both at a
name that is missing in a directory. -/
inductive ModesEnd (t : Tree) : (strict lenient : Except Failure (List Name)) → Prop
  | alike (outcome : Except Failure (List Name)) : ModesEnd t outcome outcome
  | missing (name : Name) (above : List Name) (d : DirId) :
      t.spelled above = some (.directory d) → t.entry? d name = none →
      ModesEnd t (.error (failureAt Errno.noEntry (name :: above))) (.ok (name :: above))

/-- A step depends on the mode only if it takes a missing name and no other name
waits. -/
theorem step_modes (htrail : t.spelled trail = some (.directory d)) (name : Name)
    (pending : List Name) :
    t.step .exact maxLinkSize name pending trail = t.step .missingOk maxLinkSize name pending trail
      ∨ (t.entry? d name = none
        ∧ t.step .exact maxLinkSize name pending trail
          = .stuck (failureAt Errno.noEntry (name :: trail))
        ∧ t.step .missingOk maxLinkSize name pending trail = .arrived (name :: trail)) := by
  cases t.meets d name with
  | dot hname =>
      left
      rw [hname, step_dot, step_dot]
  | dotDot hname =>
      left
      rw [hname, step_dotDot, step_dotDot]
  | directory c hdot hdotDot hentry =>
      left
      rw [step_directory htrail hdot hdotDot hentry, step_directory htrail hdot hdotDot hentry]
  | file hdot hdotDot hentry =>
      left
      rw [step_file htrail hdot hdotDot hentry, step_file htrail hdot hdotDot hentry]
  | link target hdot hdotDot hentry =>
      left
      rw [step_link htrail hdot hdotDot hentry, step_link htrail hdot hdotDot hentry]
  | missing hdot hdotDot hentry =>
      rw [step_missing htrail hdot hdotDot hentry, step_missing htrail hdot hdotDot hentry]
      cases pending with
      | nil => exact .inr ⟨hentry, rfl, rfl⟩
      | cons next pending => exact .inl rfl

/-- The two courses go in step until one of them is done. -/
theorem WellFormed.modesEnd_of_course (wf : t.WellFormed) :
    ∀ (budget : Nat) (pending trail : List Name), t.Stands pending trail →
      t.ModesEnd (t.course .exact maxLinkSize budget pending trail)
        (t.course .missingOk maxLinkSize budget pending trail) := by
  intro budget
  induction budget with
  | zero =>
      intro pending trail _
      cases pending with
      | nil => exact .alike _
      | cons name pending => exact .alike _
  | succ budget ih =>
      intro pending trail hstands
      cases pending with
      | nil => exact .alike _
      | cons name pending =>
          obtain ⟨d, hd⟩ := hstands.directory
          rw [course, course]
          rcases step_modes hd name pending with hsame | ⟨hentry, hstrict, hlenient⟩
          · rw [hsame]
            cases hstep : t.step .missingOk maxLinkSize name pending trail with
            | onward pending' trail' => exact ih pending' trail' (wf.stands_of_step hd hstep).1
            | arrived trail' => exact .alike _
            | stuck failure => exact .alike _
          · rw [hstrict, hlenient]
            exact .missing name trail d hd hentry

theorem ModesEnd.lenient_eq {lenient : Except Failure (List Name)}
    (h : t.ModesEnd (.ok trail) lenient) : lenient = .ok trail := by
  cases h
  rfl

theorem ModesEnd.strict_eq {strict : Except Failure (List Name)} {failure : Failure}
    (h : t.ModesEnd strict (.error failure)) : strict = .error failure := by
  cases h
  rfl

section

variable {mode : ExistenceMode} {budget : Nat} {pending : List Name}

/-- What is found strictly is found in any mode. -/
theorem WellFormed.course_of_strict (wf : t.WellFormed)
    (h : t.course .exact maxLinkSize budget pending [] = .ok trail) :
    t.course mode maxLinkSize budget pending [] = .ok trail := by
  cases mode with
  | exact => exact h
  | missingOk =>
      have hends : t.ModesEnd (.ok trail) (t.course .missingOk maxLinkSize budget pending []) :=
        h ▸ wf.modesEnd_of_course budget pending [] (.inl ⟨root, spelled_nil⟩)
      exact hends.lenient_eq

/-- What fails leniently fails in any mode. -/
theorem WellFormed.course_of_lenient (wf : t.WellFormed) {failure : Failure}
    (h : t.course .missingOk maxLinkSize budget pending [] = .error failure) :
    t.course mode maxLinkSize budget pending [] = .error failure := by
  cases mode with
  | missingOk => exact h
  | exact =>
      have hends : t.ModesEnd (t.course .exact maxLinkSize budget pending []) (.error failure) :=
        h ▸ wf.modesEnd_of_course budget pending [] (.inl ⟨root, spelled_nil⟩)
      exact hends.strict_eq

end

end Tree

-- ============================================================== outcomes

/-- What is found strictly is found leniently, and what fails leniently fails
strictly in the same way. Only where the last name of a lenient answer is
missing from a directory that is there, a strict resolution fails instead, and
says that the answer does not exist. -/
theorem modes_differ_at_missing_name (s : Store) (hs : s.Reachable) (limits : Limits)
    (env env' : Environment) (path : Text) (strict lenient : Value)
    (hstrict : strict.mode? env = .ok .exact) (hlenient : lenient.mode? env' = .ok .missingOk) :
    (∀ answer, s.resolved limits env path strict = .ok answer →
        s.resolved limits env' path lenient = .ok answer)
      ∧ (∀ failure, s.resolved limits env' path lenient = .error failure →
        s.resolved limits env path strict = .error failure)
      ∧ ∀ answer failure, s.resolved limits env' path lenient = .ok answer →
        s.resolved limits env path strict = .error failure →
        ∃ canonical e above name d, answer = .text canonical ∧ failure = .resolution e
          ∧ e.code = Errno.noEntry ∧ e.filename = some (.text canonical)
          ∧ names canonical = above ++ [name] ∧ s.tree.RealDirectory above d
          ∧ s.tree.entry? d name = none := by
  have wf := hs.wellFormed
  rw [Store.resolved_eq wf hstrict, Store.resolved_eq wf hlenient]
  unfold Tree.canonical
  have hends : s.tree.ModesEnd
      (s.tree.course .exact limits.maxLinkSize limits.loopBudget
        (queueOf s.workingDirectory path) [])
      (s.tree.course .missingOk limits.maxLinkSize limits.loopBudget
        (queueOf s.workingDirectory path) []) :=
    wf.tree.modesEnd_of_course _ _ _ (.inl ⟨Tree.root, Tree.spelled_nil⟩)
  -- how the lenient course ends is remembered, since it ends with plain names
  generalize hlenient' : s.tree.course .missingOk limits.maxLinkSize limits.loopBudget
    (queueOf s.workingDirectory path) [] = leniently at hends ⊢
  generalize s.tree.course .exact limits.maxLinkSize limits.loopBudget
    (queueOf s.workingDirectory path) [] = strictly at hends ⊢
  cases hends with
  | alike outcome =>
      refine ⟨fun _ h => h, fun _ h => h, fun answer failure hok herror => ?_⟩
      rw [hok] at herror
      cases herror
  | missing name above d hd hentry =>
      refine ⟨nofun, nofun, fun answer failure hok herror => ?_⟩
      have hplain : ∀ n ∈ name :: above, IsPlainName n :=
        Tree.isPlainName_of_course _ _ _ (fun _ hn => isName_of_mem_queueOf hn)
          (fun _ hn => absurd hn List.not_mem_nil) hlenient'
      injection hok with hok
      injection herror with herror
      refine ⟨trailPath (name :: above), _, above.reverse, name, d, hok.symm, herror.symm, rfl, rfl,
        ?_, ?_, hentry⟩
      · rw [names_trailPath hplain, List.reverse_cons]
      · exact Tree.realDirectory_of_spelled hd fun n hn => hplain n (List.mem_cons_of_mem _ hn)

/-- Behind a link, the last name of the answer is missing. -/
theorem modes_differ_at_missing_name_behind_link :
    ∃ above name d, names (text "/d/g") = above ++ [name]
      ∧ Store.sample.tree.RealDirectory above d ∧ Store.sample.tree.entry? d name = none := by
  have hok : Store.sample.resolved .standard .empty (text "../l/g") (.truth false)
      = .ok (.text (text "/d/g")) := rfl
  have herror : Store.sample.resolved .standard .empty (text "../l/g") (.truth true)
      = .error (.resolution ⟨Errno.noEntry, some (.text (text "/d/g")),
          some (Tree.faultAt Errno.noEntry (text "g"))⟩) := rfl
  obtain ⟨-, -, hmissing⟩ := modes_differ_at_missing_name .sample Store.sample_reachable .standard
    .empty .empty (text "../l/g") (.truth true) (.truth false) rfl rfl
  obtain ⟨canonical, _, above, name, d, hanswer, -, -, -, hnames, hreal, hentry⟩ :=
    hmissing _ _ hok herror
  obtain rfl : text "/d/g" = canonical := PathArgument.text.inj hanswer
  exact ⟨above, name, d, hnames, hreal, hentry⟩

end PathResolution
