/-
The grounds of a failure.

A resolution in memory fails because its budget is spent or because something is
in the way of the name that it takes, and then the error says what: there are
five numbers, and each of them has its grounds in the tree (`Obstacle`). They
are looked up in the directory in which the cursor stands, which is reached
through directories alone. What the system can report besides, that the cursor's
handle is not open, that a name just read as no link is one when it is opened,
that there is no way up, never comes up, because cursor and trail agree
(CursorAndTrail.lean).
-/
import PathResolution.Proofs.Resolution.CursorAndTrail

namespace PathResolution

-- ============================================================= obstacles

/-- What is in the way of a name in a directory if `rest` waits behind it, by
the number under which it is reported. -/
inductive Obstacle (t : Tree) (mode : ExistenceMode) (maxLinkSize : Nat) (d : DirId) (name : Name)
    (rest : List Name) : Errno → Prop
  | missing : t.entry? d name = none → mode = .exact ∨ rest ≠ [] →
      Obstacle t mode maxLinkSize d name rest Errno.noEntry
  | emptyLink : t.entry? d name = some (.link []) →
      Obstacle t mode maxLinkSize d name rest Errno.noEntry
  | file : t.entry? d name = some .file → rest ≠ [] →
      Obstacle t mode maxLinkSize d name rest Errno.notADirectory
  | tooLong (target : Text) (bytes : List UInt8) : t.entry? d name = some (.link target) →
      target ≠ [] → utf8 target = .ok bytes → maxLinkSize ≤ bytes.length →
      Obstacle t mode maxLinkSize d name rest Errno.nameTooLong
  | unencodable (target : Text) (u : Unencodable) : t.entry? d name = some (.link target) →
      target ≠ [] → utf8 target = .error u →
      Obstacle t mode maxLinkSize d name rest Errno.invalidArgument

/-- Where an error is reported: at the name that is taken, behind the committed
names. Only a target without bytes is reported at the path that is resolved. -/
def ResolutionError.About (e : ResolutionError) (path : Text) (above : List Name) (name : Name) :
    Prop :=
  e.filename = some (.text
    (if e.code = Errno.invalidArgument then path else pathOf (above ++ [name])))

/-- A failure that is reported with this number, at the name behind the trail. -/
def Failure.ReportedBehind (failure : Failure) (trail : List Name) (name : Name) (code : Errno) :
    Prop :=
  ∀ path, ∃ e, failure.reportedAt path = .resolution e ∧ e.code = code
    ∧ e.About path trail.reverse name

section

variable {t : Tree} {mode : ExistenceMode} {maxLinkSize : Nat} {d : DirId} {name : Name}
  {rest trail : List Name} {failure : Failure} {code : Errno}

theorem Obstacle.ne_tooManyLinks (h : Obstacle t mode maxLinkSize d name rest code) :
    code ≠ Errno.tooManyLinks := by
  cases h <;> decide

theorem resolution_reportedBehind (hcode : code ≠ Errno.invalidArgument) (name : Name)
    (trail : List Name) (cause : Option Fault) :
    (Failure.resolution ⟨code, some (.text (trailPath (name :: trail))), cause⟩).ReportedBehind
      trail name code := by
  refine fun path => ⟨_, rfl, rfl, ?_⟩
  rw [ResolutionError.About, if_neg hcode, trailPath, List.reverse_cons]

theorem failureAt_reportedBehind (hcode : code ≠ 0) (hfits : code.IsRepresentable)
    (hother : code ≠ Errno.invalidArgument) (name : Name) (trail : List Name) :
    (failureAt code (name :: trail)).ReportedBehind trail name code := by
  rw [failureAt_eq hcode hfits]
  exact resolution_reportedBehind hother name trail _

/-- A link that is not followed is an obstacle. -/
theorem obstacle_of_refusal {target : Text} (hentry : t.entry? d name = some (.link target))
    (h : refusal? maxLinkSize name target trail = some failure) :
    ∃ code, Obstacle t mode maxLinkSize d name rest code
      ∧ failure.ReportedBehind trail name code := by
  unfold refusal? at h
  split at h
  · next hempty =>
    injection h with h
    subst h
    rw [List.isEmpty_iff.mp hempty] at hentry
    exact ⟨_, .emptyLink hentry, resolution_reportedBehind (by decide) name trail none⟩
  · next hempty =>
    have hne : target ≠ [] := fun hnil => hempty (List.isEmpty_iff.mpr hnil)
    split at h
    · next u hbytes =>
      injection h with h
      subst h
      exact ⟨_, .unencodable target u hentry hne hbytes, fun path => ⟨_, rfl, rfl, rfl⟩⟩
    · next bytes hbytes =>
      split at h
      · next hsize =>
        injection h with h
        subst h
        exact ⟨_, .tooLong target bytes hentry hne hbytes hsize,
          resolution_reportedBehind (by decide) name trail none⟩
      · cases h

/-- A step that fails has met an obstacle, and reports it. -/
theorem obstacle_of_step (htrail : t.spelled trail = some (.directory d))
    (h : t.step mode maxLinkSize name rest trail = .stuck failure) :
    name ≠ dot ∧ name ≠ dotDot ∧ ∃ code, Obstacle t mode maxLinkSize d name rest code
      ∧ failure.ReportedBehind trail name code := by
  cases t.meets d name with
  | dot hname =>
      rw [hname, Tree.step_dot] at h
      cases h
  | dotDot hname =>
      rw [hname, Tree.step_dotDot] at h
      cases h
  | directory c hdot hdotDot hentry =>
      rw [Tree.step_directory htrail hdot hdotDot hentry] at h
      cases h
  | file hdot hdotDot hentry =>
      rw [Tree.step_file htrail hdot hdotDot hentry] at h
      split at h
      · cases h
      · next hrest =>
        injection h with h
        refine ⟨hdot, hdotDot, _, .file hentry fun hnil => hrest (List.isEmpty_iff.mpr hnil), ?_⟩
        exact h ▸ failureAt_reportedBehind (by decide) (by decide) (by decide) name trail
  | link target hdot hdotDot hentry =>
      rw [Tree.step_link htrail hdot hdotDot hentry] at h
      split at h
      · next hrefusal =>
        injection h with h
        exact ⟨hdot, hdotDot, obstacle_of_refusal hentry (h ▸ hrefusal)⟩
      · cases h
  | missing hdot hdotDot hentry =>
      rw [Tree.step_missing htrail hdot hdotDot hentry] at h
      split at h
      · cases h
      · next hlast =>
        injection h with h
        have hstrict : mode = .exact ∨ rest ≠ [] := by
          cases mode with
          | exact => exact .inl rfl
          | missingOk => exact .inr fun hnil => hlast ⟨rfl, List.isEmpty_iff.mpr hnil⟩
        refine ⟨hdot, hdotDot, _, .missing hentry hstrict, ?_⟩
        exact h ▸ failureAt_reportedBehind (by decide) (by decide) (by decide) name trail

/-- A name that cannot be taken at a head has an obstacle in the directory in
which the cursor stands. -/
theorem Heads.obstacle {s s' : Store} {path : Text} {taken : Nat} {cursor cursor' : Cursor}
    (hs : s.WellFormed)
    (h : Heads Store.answer mode maxLinkSize path s taken ⟨name :: rest, trail, cursor⟩ s')
    (hvalue : ((takeName mode maxLinkSize name ⟨rest, trail, cursor⟩).run Store.answer s').value
      = .stuck failure cursor') :
    ∃ d code, s.tree.RealDirectory trail.reverse d ∧ IsPlainName name
      ∧ Obstacle s.tree mode maxLinkSize d name rest code
      ∧ failure.ReportedBehind trail name code := by
  obtain ⟨_, d, -, -, -, hreal⟩ := h.realDirectory hs (List.cons_ne_nil _ _)
  obtain ⟨view, htracks⟩ := h.tracks hs
  rw [hvalue] at htracks
  have hname : IsName name := h.wellSpelt.pending name List.mem_cons_self
  obtain ⟨hdot, hdotDot, code, hobstacle, hreported⟩ := obstacle_of_step hreal.ends htracks.stuck
  exact ⟨d, code, hreal, ⟨hname, hdot, hdotDot⟩, hobstacle, hreported⟩

end

-- ============================================================== failures

/-- A resolution fails with this error at a head of its loop: so many names have
been taken, and `name` is to be taken next in the directory `d`, to which the
committed names `above` lead. -/
structure FailsAt (s : Store) (limits : Limits) (mode : ExistenceMode) (path : Text)
    (e : ResolutionError) (taken : Nat) (above : List Name) (d : DirId) (name : Name)
    (rest : List Name) : Prop where
  head : ∃ cursor s', Heads Store.answer mode limits.maxLinkSize path s taken
    ⟨name :: rest, above.reverse, cursor⟩ s'
  directory : s.tree.RealDirectory above d
  about : e.About path above name
  grounds : (e.code = Errno.tooManyLinks ∧ taken = limits.loopBudget)
    ∨ (IsPlainName name ∧ Obstacle s.tree mode limits.maxLinkSize d name rest e.code)

/-- A reported failure is true of the tree: the budget is spent with a name
waiting, or the number says what is in the way of the name that is reported, in
the directory that is reported with it. -/
theorem failure_true_of_tree (s : Store) (hs : s.Reachable) (limits : Limits) (env : Environment)
    (path : Text) (exact : Value) (mode : ExistenceMode) (hmode : exact.mode? env = .ok mode)
    (failure : Failure) (h : s.resolved limits env path exact = .error failure) :
    ∃ e taken above d name rest, failure = .resolution e
      ∧ FailsAt s limits mode path e taken above d name rest := by
  have wf := hs.wellFormed
  obtain ⟨failure', hcourse, rfl⟩ := (Store.resolved_eq_error_iff wf hmode).mp h
  obtain ⟨cursor, hends⟩ := Store.loopEnds wf mode limits.maxLinkSize path limits.loopBudget
  rw [hcourse] at hends
  cases hends with
  | @outOfBudget name rest trail _ s' hhead =>
      obtain ⟨_, d, -, -, -, hreal⟩ := hhead.realDirectory wf (List.cons_ne_nil _ _)
      obtain ⟨e, he, hcode, habout⟩ := resolution_reportedBehind
        (show Errno.tooManyLinks ≠ Errno.invalidArgument by decide) name trail none path
      rw [← trail.reverse_reverse] at hhead
      exact ⟨e, limits.loopBudget, trail.reverse, d, name, rest, he, ⟨_, _, hhead⟩, hreal, habout,
        .inl ⟨hcode, rfl⟩⟩
  | @stuck taken name rest trail _ _ s' _ _ hhead hvalue =>
      obtain ⟨d, code, hreal, hname, hobstacle, hreported⟩ := hhead.obstacle wf hvalue
      obtain ⟨e, he, rfl, habout⟩ := hreported path
      rw [← trail.reverse_reverse] at hhead
      exact ⟨e, taken, trail.reverse, d, name, rest, he, ⟨_, _, hhead⟩, hreal, habout,
        .inr ⟨hname, hobstacle⟩⟩

/-- What is reported behind a link is said of where the link leads. -/
theorem failure_true_of_tree_behind_link :
    let e : ResolutionError := ⟨Errno.notADirectory, some (.text (text "/d/f")),
      some (Tree.faultAt Errno.notADirectory (text "f"))⟩
    Store.sample.resolved .standard .empty (text "/l/f/x") (.truth false) = .error (.resolution e)
      ∧ ∃ taken above d name rest,
        FailsAt .sample .standard .missingOk (text "/l/f/x") e taken above d name rest := by
  intro e
  have h : Store.sample.resolved .standard .empty (text "/l/f/x") (.truth false)
      = .error (.resolution e) := rfl
  obtain ⟨e', taken, above, d, name, rest, he, hfails⟩ := failure_true_of_tree .sample
    Store.sample_reachable .standard .empty (text "/l/f/x") (.truth false) .missingOk rfl _ h
  obtain rfl : e = e' := Failure.resolution.inj he
  exact ⟨h, taken, above, d, name, rest, hfails⟩

end PathResolution
