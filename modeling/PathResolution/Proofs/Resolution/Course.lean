/-
The course of a resolution through a tree.

What a resolution does in a tree is determined by the names that wait and the
names that were committed; handles, calls and the log say nothing more about
where it stands. `step` takes one name and `course` takes them all, on lists
of names alone: the directory that a name is looked up in is the one that the
trail spells. Faithful.lean shows that a run against a store is this course.

Between two names a course stands in a directory, or at its end on a file
(`WellFormed.stands_of_step`). It ends in a directory, on a file, or in the
lenient mode on a name that is missing from a directory
(`WellFormed.reaches_of_course`), and the names that it ends with are plain
(`isPlainName_of_course`).

The budget is tested before a name is taken, and nothing else reads it. So a
course that does not run out of it is the course for every larger budget
(`course_mono`).
-/
import PathResolution.Proofs.Tree.Shape
import PathResolution.Resolution
import PathResolution.Tree.Walk

namespace PathResolution

-- ================================================================ course

/-- How taking one name ends in a tree. -/
inductive Step where
  | onward (pending trail : List Name)
  | arrived (trail : List Name)
  | stuck (failure : Failure)

/-- Names wait in the queue, and plain names were committed. -/
def Step.WellSpelt : Step → Prop
  | .onward pending trail => (∀ n ∈ pending, IsName n) ∧ ∀ n ∈ trail, IsPlainName n
  | .arrived trail => ∀ n ∈ trail, IsPlainName n
  | .stuck _ => True

/-- The failure that the filesystem reports at the end of a trail. -/
def failureAt (code : Errno) (trail : List Name) : Failure :=
  (Tree.faultAt code (trail.headD [])).failureAt (trailPath trail)

/-- Why a link is not followed, if it is not. -/
def refusal? (maxLinkSize : Nat) (name : Name) (target : Text) (trail : List Name) :
    Option Failure :=
  if target.isEmpty then some (.resolution (.at Errno.noEntry (trailPath (name :: trail))))
  else match utf8 target with
    | .error u => some (.fault (.refused (.unencodable u)))
    | .ok bytes =>
      if maxLinkSize ≤ bytes.length then
        some (.resolution (.at Errno.nameTooLong (trailPath (name :: trail))))
      else none

/-- A failure that is reported under this number, at whatever path it is
reported. -/
def Failure.ReportedAs (failure : Failure) (code : Errno) : Prop :=
  ∀ path, ∃ e, failure.reportedAt path = .resolution e ∧ e.code = code

theorem resolution_reported (e : ResolutionError) : (Failure.resolution e).ReportedAs e.code :=
  fun _ => ⟨e, rfl, rfl⟩

theorem failureAt_eq {code : Errno} (hcode : code ≠ 0) (hfits : code.IsRepresentable)
    (trail : List Name) :
    failureAt code trail = .resolution
      ⟨code, some (.text (trailPath trail)), some (Tree.faultAt code (trail.headD []))⟩ := by
  have hreported : reportedCode (some code) = code := if_neg hcode
  show Failure.ofCode (reportedCode (some code)) _ _ = _
  rw [hreported]
  exact Failure.ofCode_eq hfits _ _

theorem failureAt_reported {code : Errno} (hcode : code ≠ 0) (hfits : code.IsRepresentable)
    (trail : List Name) : (failureAt code trail).ReportedAs code :=
  failureAt_eq hcode hfits trail ▸ resolution_reported _

theorem refusal?_reported {maxLinkSize : Nat} {name : Name} {target : Text} {trail : List Name}
    {failure : Failure} (h : refusal? maxLinkSize name target trail = some failure) :
    ∃ code, failure.ReportedAs code := by
  unfold refusal? at h
  split at h
  · injection h with h
    exact h ▸ ⟨_, resolution_reported _⟩
  · split at h
    · injection h with h
      exact h ▸ ⟨Errno.invalidArgument, fun _ => ⟨_, rfl, rfl⟩⟩
    · split at h
      · injection h with h
        exact h ▸ ⟨_, resolution_reported _⟩
      · cases h

/-- A target that the loop follows. -/
def Followable (maxLinkSize : Nat) (target : Text) : Prop :=
  target ≠ [] ∧ ∃ bytes, utf8 target = .ok bytes ∧ bytes.length < maxLinkSize

theorem refusal?_of_followable {maxLinkSize : Nat} {target : Text}
    (h : Followable maxLinkSize target) (name : Name) (trail : List Name) :
    refusal? maxLinkSize name target trail = none := by
  obtain ⟨hne, bytes, hbytes, hsize⟩ := h
  have hempty : ¬ target.isEmpty := by simpa using hne
  simp only [refusal?, if_neg hempty, hbytes, if_neg (Nat.not_le_of_lt hsize)]

/-- The trail from which the names of a target are taken. -/
def linkTrail (target : Text) (trail : List Name) : List Name :=
  if isAbsolute target then [] else trail

namespace Tree

/-- Takes one name in the directory that the trail spells. -/
def step (t : Tree) (mode : ExistenceMode) (maxLinkSize : Nat) (name : Name)
    (pending trail : List Name) : Step :=
  if name = dot then .onward pending trail
  else if name = dotDot then .onward pending trail.tail
  else match t.spelled (name :: trail) with
    | some (.directory _) => .onward pending (name :: trail)
    | some .file =>
      if pending.isEmpty then .onward pending (name :: trail)
      else .stuck (failureAt Errno.notADirectory (name :: trail))
    | some (.link target) =>
      match refusal? maxLinkSize name target trail with
      | some failure => .stuck failure
      | none => .onward (names target ++ pending) (linkTrail target trail)
    | none =>
      if mode = .missingOk ∧ pending.isEmpty then .arrived (name :: trail)
      else .stuck (failureAt Errno.noEntry (name :: trail))

/-- Takes names until none waits, or as many as the budget allows. -/
def course (t : Tree) (mode : ExistenceMode) (maxLinkSize : Nat) :
    (budget : Nat) → (pending trail : List Name) → Except Failure (List Name)
  | _, [], trail => .ok trail
  | 0, name :: _, trail =>
    .error (.resolution (.at Errno.tooManyLinks (trailPath (name :: trail))))
  | budget + 1, name :: pending, trail =>
    match t.step mode maxLinkSize name pending trail with
    | .onward pending trail => t.course mode maxLinkSize budget pending trail
    | .arrived trail => .ok trail
    | .stuck failure => .error failure

variable {t : Tree} {mode : ExistenceMode} {maxLinkSize budget : Nat} {name : Name}
  {pending trail : List Name} {d : DirId}

theorem course_nil : t.course mode maxLinkSize budget [] trail = .ok trail := by
  cases budget <;> rfl

-- ========================================================= kinds of names

/-- What a name can be in a directory. -/
inductive Meets (t : Tree) (d : DirId) (name : Name) : Prop
  | dot : name = PathResolution.dot → Meets t d name
  | dotDot : name = PathResolution.dotDot → Meets t d name
  | directory (c : DirId) : name ≠ PathResolution.dot → name ≠ PathResolution.dotDot →
      t.entry? d name = some (.directory c) → Meets t d name
  | file : name ≠ PathResolution.dot → name ≠ PathResolution.dotDot →
      t.entry? d name = some .file → Meets t d name
  | link (target : Text) : name ≠ PathResolution.dot → name ≠ PathResolution.dotDot →
      t.entry? d name = some (.link target) → Meets t d name
  | missing : name ≠ PathResolution.dot → name ≠ PathResolution.dotDot →
      t.entry? d name = none → Meets t d name

theorem meets (t : Tree) (d : DirId) (name : Name) : t.Meets d name := by
  by_cases hdot : name = PathResolution.dot
  · exact .dot hdot
  · by_cases hdotDot : name = PathResolution.dotDot
    · exact .dotDot hdotDot
    · cases h : t.entry? d name with
      | none => exact .missing hdot hdotDot h
      | some node =>
          cases node with
          | directory c => exact .directory c hdot hdotDot h
          | file => exact .file hdot hdotDot h
          | link target => exact .link target hdot hdotDot h

theorem step_dot : t.step mode maxLinkSize dot pending trail = .onward pending trail := by
  rw [step, if_pos rfl]

theorem step_dotDot :
    t.step mode maxLinkSize dotDot pending trail = .onward pending trail.tail := by
  rw [step, if_neg (by decide), if_pos rfl]

section

variable (htrail : t.spelled trail = some (.directory d)) (hdot : name ≠ dot)
  (hdotDot : name ≠ dotDot)

include htrail hdot hdotDot

theorem step_directory {c : DirId} (h : t.entry? d name = some (.directory c)) :
    t.step mode maxLinkSize name pending trail = .onward pending (name :: trail) := by
  rw [step, if_neg hdot, if_neg hdotDot, spelled_cons htrail, h]

theorem step_file (h : t.entry? d name = some .file) :
    t.step mode maxLinkSize name pending trail
      = if pending.isEmpty then .onward pending (name :: trail)
        else .stuck (failureAt Errno.notADirectory (name :: trail)) := by
  rw [step, if_neg hdot, if_neg hdotDot, spelled_cons htrail, h]

theorem step_link {target : Text} (h : t.entry? d name = some (.link target)) :
    t.step mode maxLinkSize name pending trail
      = match refusal? maxLinkSize name target trail with
        | some failure => .stuck failure
        | none => .onward (names target ++ pending) (linkTrail target trail) := by
  rw [step, if_neg hdot, if_neg hdotDot, spelled_cons htrail, h]

theorem step_missing (h : t.entry? d name = none) :
    t.step mode maxLinkSize name pending trail
      = if mode = .missingOk ∧ pending.isEmpty then .arrived (name :: trail)
        else .stuck (failureAt Errno.noEntry (name :: trail)) := by
  rw [step, if_neg hdot, if_neg hdotDot, spelled_cons htrail, h]

end

-- =============================================================== standing

/-- Where a course stands between two names: in a directory, or at its end on a
file. -/
def Stands (t : Tree) (pending trail : List Name) : Prop :=
  (∃ d, t.spelled trail = some (.directory d)) ∨ (pending = [] ∧ t.spelled trail = some .file)

theorem Stands.directory (h : t.Stands (name :: pending) trail) :
    ∃ d, t.spelled trail = some (.directory d) := by
  rcases h with hd | ⟨hnil, -⟩
  · exact hd
  · cases hnil

variable {pending' trail' : List Name}

theorem spelled_linkTrail (h : t.spelled trail = some (.directory d)) (target : Text) :
    t.spelled (linkTrail target trail)
      = some (.directory (walkStart d target)) := by
  unfold linkTrail walkStart
  split
  · rfl
  · exact h

/-- A step leads from a directory to where a course can stand, and adds at most
one name. -/
theorem WellFormed.stands_of_step (wf : t.WellFormed)
    (htrail : t.spelled trail = some (.directory d))
    (h : t.step mode maxLinkSize name pending trail = .onward pending' trail') :
    t.Stands pending' trail' ∧ trail'.length ≤ trail.length + 1 := by
  cases t.meets d name with
  | dot hname =>
      rw [hname, step_dot] at h
      injection h with hpending htrail'
      rw [← htrail']
      exact ⟨.inl ⟨d, htrail⟩, Nat.le_succ _⟩
  | dotDot hname =>
      rw [hname, step_dotDot] at h
      injection h with hpending htrail'
      rw [← htrail', List.length_tail]
      exact ⟨.inl ⟨_, wf.spelled_tail htrail⟩, by omega⟩
  | directory c hdot hdotDot hentry =>
      rw [step_directory htrail hdot hdotDot hentry] at h
      injection h with hpending htrail'
      rw [← htrail']
      exact ⟨.inl ⟨c, (spelled_cons htrail name).trans hentry⟩, Nat.le_refl _⟩
  | file hdot hdotDot hentry =>
      rw [step_file htrail hdot hdotDot hentry] at h
      split at h
      · next hnil =>
        injection h with hpending htrail'
        rw [← htrail', ← hpending]
        exact ⟨.inr ⟨List.isEmpty_iff.mp hnil, (spelled_cons htrail name).trans hentry⟩,
          Nat.le_refl _⟩
      · cases h
  | link target hdot hdotDot hentry =>
      rw [step_link htrail hdot hdotDot hentry] at h
      split at h
      · cases h
      · injection h with hpending htrail'
        rw [← htrail']
        refine ⟨.inl ⟨_, spelled_linkTrail htrail target⟩, ?_⟩
        unfold linkTrail
        split
        · exact Nat.zero_le _
        · exact Nat.le_succ _
  | missing hdot hdotDot hentry =>
      rw [step_missing htrail hdot hdotDot hentry] at h
      split at h <;> cases h

-- ============================================================== arriving

/-- What a course can end with: a directory, a file, or in the lenient mode a
name that is missing in a directory. -/
inductive Reaches (t : Tree) (mode : ExistenceMode) : (trail : List Name) → Prop
  | directory {trail : List Name} (d : DirId) : t.spelled trail = some (.directory d) →
      Reaches t mode trail
  | file {trail : List Name} : t.spelled trail = some .file → Reaches t mode trail
  | missing {trail : List Name} {name : Name} (d : DirId) : mode = .missingOk →
      t.spelled trail = some (.directory d) → t.entry? d name = none →
      Reaches t mode (name :: trail)

/-- Only a missing name is arrived at in passing. -/
theorem reaches_of_step (htrail : t.spelled trail = some (.directory d))
    (h : t.step mode maxLinkSize name pending trail = .arrived trail') :
    t.Reaches mode trail' ∧ trail' = name :: trail := by
  cases t.meets d name with
  | dot hname =>
      rw [hname, step_dot] at h
      cases h
  | dotDot hname =>
      rw [hname, step_dotDot] at h
      cases h
  | directory c hdot hdotDot hentry =>
      rw [step_directory htrail hdot hdotDot hentry] at h
      cases h
  | file hdot hdotDot hentry =>
      rw [step_file htrail hdot hdotDot hentry] at h
      split at h <;> cases h
  | link target hdot hdotDot hentry =>
      rw [step_link htrail hdot hdotDot hentry] at h
      split at h <;> cases h
  | missing hdot hdotDot hentry =>
      rw [step_missing htrail hdot hdotDot hentry] at h
      split at h
      · next hmode =>
        injection h with htrail'
        rw [← htrail']
        exact ⟨.missing d hmode.1 htrail hentry, rfl⟩
      · cases h

/-- A course ends where one can end. -/
theorem WellFormed.reaches_of_course (wf : t.WellFormed) :
    ∀ (budget : Nat) (pending trail : List Name), t.Stands pending trail →
      t.course mode maxLinkSize budget pending trail = .ok trail' → t.Reaches mode trail' := by
  have hend : ∀ trail, t.Stands [] trail → t.Reaches mode trail := by
    intro trail hstands
    rcases hstands with ⟨d, hd⟩ | ⟨-, hfile⟩
    · exact .directory d hd
    · exact .file hfile
  intro budget
  induction budget with
  | zero =>
      intro pending trail hstands h
      cases pending with
      | nil =>
          injection h with h
          exact h ▸ hend trail hstands
      | cons name pending => cases h
  | succ budget ih =>
      intro pending trail hstands h
      cases pending with
      | nil =>
          injection h with h
          exact h ▸ hend trail hstands
      | cons name pending =>
          obtain ⟨d, hd⟩ := hstands.directory
          rw [course] at h
          cases hstep : t.step mode maxLinkSize name pending trail with
          | onward pending₁ trail₁ =>
              rw [hstep] at h
              exact ih pending₁ trail₁ (wf.stands_of_step hd hstep).1 h
          | arrived trail₁ =>
              rw [hstep] at h
              injection h with h
              exact h ▸ (reaches_of_step hd hstep).1
          | stuck failure =>
              rw [hstep] at h
              cases h

-- ============================================================== spelling

/-- Taking a name leaves names in the queue and plain names behind. -/
theorem step_wellSpelt (hname : IsName name) (hpending : ∀ n ∈ pending, IsName n)
    (htrail : ∀ n ∈ trail, IsPlainName n) :
    (t.step mode maxLinkSize name pending trail).WellSpelt := by
  unfold step
  split
  · exact ⟨hpending, htrail⟩
  · next hdot =>
    split
    · exact ⟨hpending, fun n hn => htrail n (List.mem_of_mem_tail hn)⟩
    · next hdotDot =>
      have htrail' : ∀ n ∈ name :: trail, IsPlainName n := by
        intro n hn
        rcases List.mem_cons.mp hn with rfl | hn
        · exact ⟨hname, hdot, hdotDot⟩
        · exact htrail n hn
      split
      · exact ⟨hpending, htrail'⟩
      · split
        · exact ⟨hpending, htrail'⟩
        · trivial
      · next target _ =>
        split
        · trivial
        · refine ⟨fun n hn => ?_, ?_⟩
          · rcases List.mem_append.mp hn with hn | hn
            · exact isName_of_mem_names hn
            · exact hpending n hn
          · unfold linkTrail
            split
            · exact nofun
            · exact htrail
      · split
        · exact htrail'
        · trivial

/-- A course ends with plain names. -/
theorem isPlainName_of_course :
    ∀ (budget : Nat) (pending trail : List Name), (∀ n ∈ pending, IsName n) →
      (∀ n ∈ trail, IsPlainName n) →
      t.course mode maxLinkSize budget pending trail = .ok trail' →
      ∀ n ∈ trail', IsPlainName n := by
  intro budget
  induction budget with
  | zero =>
      intro pending trail hpending htrail h
      cases pending with
      | nil =>
          injection h with h
          exact h ▸ htrail
      | cons name pending => cases h
  | succ budget ih =>
      intro pending trail hpending htrail h
      cases pending with
      | nil =>
          injection h with h
          exact h ▸ htrail
      | cons name pending =>
          have hname : IsName name := hpending name List.mem_cons_self
          have hpending' : ∀ n ∈ pending, IsName n := fun n hn =>
            hpending n (List.mem_cons_of_mem _ hn)
          have hspelt : (t.step mode maxLinkSize name pending trail).WellSpelt :=
            step_wellSpelt hname hpending' htrail
          rw [course] at h
          split at h
          · next hstep =>
            rw [hstep] at hspelt
            exact ih _ _ hspelt.1 hspelt.2 h
          · next hstep =>
            rw [hstep] at hspelt
            injection h with h
            exact h ▸ hspelt
          · cases h

-- ============================================================== failures

/-- What sticks is reported. -/
theorem reported_of_step {failure : Failure}
    (h : t.step mode maxLinkSize name pending trail = .stuck failure) :
    ∃ code, failure.ReportedAs code := by
  unfold step at h
  split at h
  · cases h
  · split at h
    · cases h
    · split at h
      · cases h
      · split at h
        · cases h
        · injection h with h
          exact h ▸ ⟨_, failureAt_reported (by decide) (by decide) _⟩
      · split at h
        · next hrefusal =>
          injection h with h
          exact h ▸ refusal?_reported hrefusal
        · cases h
      · split at h
        · cases h
        · injection h with h
          exact h ▸ ⟨_, failureAt_reported (by decide) (by decide) _⟩

/-- A course that fails ends with a failure that is reported under one number,
at whatever path. -/
theorem reported_of_course {failure : Failure} :
    ∀ (budget : Nat) (pending trail : List Name),
      t.course mode maxLinkSize budget pending trail = .error failure →
      ∃ code, failure.ReportedAs code := by
  intro budget
  induction budget with
  | zero =>
      intro pending trail h
      cases pending with
      | nil => cases h
      | cons name pending =>
          injection h with h
          exact h ▸ ⟨_, resolution_reported _⟩
  | succ budget ih =>
      intro pending trail h
      cases pending with
      | nil => cases h
      | cons name pending =>
          rw [course] at h
          split at h
          · exact ih _ _ h
          · cases h
          · next hstep =>
            injection h with h
            exact reported_of_step (h ▸ hstep)

-- ============================================================= the budget

/-- The end of a course that ran out of its budget. -/
def LoopsOut (outcome : Except Failure (List Name)) : Prop :=
  ∃ e, outcome = .error (.resolution e) ∧ e.code = Errno.tooManyLinks

/-- What does not run out of a budget ends alike with a larger one. -/
theorem course_mono (more : Nat) :
    ∀ (budget : Nat) (pending trail : List Name),
      ¬ LoopsOut (t.course mode maxLinkSize budget pending trail) →
      t.course mode maxLinkSize (budget + more) pending trail
        = t.course mode maxLinkSize budget pending trail := by
  intro budget
  induction budget with
  | zero =>
      intro pending trail h
      cases pending with
      | nil => rw [course_nil, course_nil]
      | cons name pending => exact absurd ⟨_, rfl, rfl⟩ h
  | succ budget ih =>
      intro pending trail h
      cases pending with
      | nil => rw [course_nil, course_nil]
      | cons name pending =>
          rw [course] at h ⊢
          rw [show budget + 1 + more = budget + more + 1 by omega, course]
          cases hstep : t.step mode maxLinkSize name pending trail with
          | onward pending₁ trail₁ =>
              rw [hstep] at h
              exact ih pending₁ trail₁ h
          | arrived trail₁ => rfl
          | stuck failure => rfl

end Tree

end PathResolution
