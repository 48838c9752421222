/-
Cutting a queue of names in two.

A name is treated in one of two ways, depending on whether other names wait
behind it: a file and a missing name are fine as the last name and fatal
before it. `arrive` puts that off. It stands at the end of a trail and looks
at what the trail leads to when it knows whether names wait. In its terms a
queue can be cut anywhere (`arrive_append`): taking `front ++ back` is taking
`front`, and arriving at its end with `back`, or failing where `front` fails
(`course_append_of_error`). The same holds of the trail that `front` ended with,
when it is written out as names again (`arrive_trail`), and it never costs more.
-/
import PathResolution.Proofs.Resolution.Course

namespace PathResolution.Tree

/-- The end of a trail, with the names that wait there: a file or a missing
name is no place to go on from. -/
def arrive (t : Tree) (mode : ExistenceMode) (maxLinkSize budget : Nat)
    (pending trail : List Name) : Except Failure (List Name) :=
  match pending, t.spelled trail with
  | [], _ => .ok trail
  | _ :: _, some (.directory _) => t.course mode maxLinkSize budget pending trail
  | _ :: _, some .file => .error (failureAt Errno.notADirectory trail)
  | _ :: _, _ => .error (failureAt Errno.noEntry trail)

variable {t : Tree} {mode : ExistenceMode} {maxLinkSize budget : Nat} {name : Name}
  {pending trail trail' : List Name} {d : DirId}

theorem arrive_nil : t.arrive mode maxLinkSize budget [] trail = .ok trail := rfl

theorem arrive_of_directory (h : t.spelled trail = some (.directory d)) :
    t.arrive mode maxLinkSize budget pending trail
      = t.course mode maxLinkSize budget pending trail := by
  cases pending with
  | nil => rw [arrive_nil, course_nil]
  | cons name pending => simp only [arrive, h]

theorem arrive_of_file (h : t.spelled trail = some .file) (hp : pending ≠ []) :
    t.arrive mode maxLinkSize budget pending trail
      = .error (failureAt Errno.notADirectory trail) := by
  cases pending with
  | nil => exact absurd rfl hp
  | cons name pending => simp only [arrive, h]

theorem arrive_of_missing (h : t.spelled trail = none) (hp : pending ≠ []) :
    t.arrive mode maxLinkSize budget pending trail
      = .error (failureAt Errno.noEntry trail) := by
  cases pending with
  | nil => exact absurd rfl hp
  | cons name pending => simp only [arrive, h]

theorem arrive_mono (more : Nat) (h : ¬ LoopsOut (t.arrive mode maxLinkSize budget pending trail)) :
    t.arrive mode maxLinkSize (budget + more) pending trail
      = t.arrive mode maxLinkSize budget pending trail := by
  unfold arrive at h ⊢
  split
  · rfl
  · next hd =>
    rw [hd] at h
    exact course_mono more budget _ trail h
  · rfl
  · rfl

-- ======================================================= cutting a queue

/-- Taking a name from a queue is taking it from a part of the queue, and
arriving at its end with the rest. -/
theorem WellFormed.course_cons_append (wf : t.WellFormed)
    (htrail : t.spelled trail = some (.directory d)) (name : Name) (front back : List Name) :
    t.course mode maxLinkSize (budget + 1) (name :: (front ++ back)) trail
      = match t.step mode maxLinkSize name front trail with
        | .onward pending trail => t.arrive mode maxLinkSize budget (pending ++ back) trail
        | .arrived trail => t.arrive mode maxLinkSize budget back trail
        | .stuck failure => .error failure := by
  rw [course]
  cases t.meets d name with
  | dot hname =>
      rw [hname, step_dot, step_dot]
      exact (arrive_of_directory htrail).symm
  | dotDot hname =>
      rw [hname, step_dotDot, step_dotDot]
      exact (arrive_of_directory (wf.spelled_tail htrail)).symm
  | directory c hdot hdotDot hentry =>
      rw [step_directory htrail hdot hdotDot hentry, step_directory htrail hdot hdotDot hentry]
      exact (arrive_of_directory ((spelled_cons htrail name).trans hentry)).symm
  | file hdot hdotDot hentry =>
      have hfile : t.spelled (name :: trail) = some .file :=
        (spelled_cons htrail name).trans hentry
      rw [step_file htrail hdot hdotDot hentry, step_file htrail hdot hdotDot hentry]
      cases front with
      | cons next front => rfl
      | nil =>
          cases back with
          | nil => exact course_nil
          | cons next back => exact (arrive_of_file hfile (List.cons_ne_nil _ _)).symm
  | link target hdot hdotDot hentry =>
      rw [step_link htrail hdot hdotDot hentry, step_link htrail hdot hdotDot hentry]
      cases refusal? maxLinkSize name target trail with
      | some failure => rfl
      | none =>
          show _ = t.arrive mode maxLinkSize budget ((names target ++ front) ++ back) _
          rw [List.append_assoc]
          exact (arrive_of_directory (spelled_linkTrail htrail target)).symm
  | missing hdot hdotDot hentry =>
      have hmissing : t.spelled (name :: trail) = none :=
        (spelled_cons htrail name).trans hentry
      rw [step_missing htrail hdot hdotDot hentry, step_missing htrail hdot hdotDot hentry]
      cases front with
      | cons next front => simp
      | nil =>
          cases back with
          | nil => cases mode <;> rfl
          | cons next back =>
              cases mode with
              | exact => rfl
              | missingOk => exact (arrive_of_missing hmissing (List.cons_ne_nil _ _)).symm

/-- A course that takes part of a queue to a trail takes the whole queue there
first; what it costs bounds the length of the trail. -/
theorem WellFormed.arrive_append (wf : t.WellFormed) :
    ∀ (budget : Nat) (front trail : List Name), t.Stands front trail →
      t.course mode maxLinkSize budget front trail = .ok trail' →
      ∃ cost ≤ budget, trail'.length ≤ trail.length + cost
        ∧ ∀ back left, t.arrive mode maxLinkSize (cost + left) (front ++ back) trail
            = t.arrive mode maxLinkSize left back trail' := by
  have hend : ∀ budget trail, t.course mode maxLinkSize budget [] trail = .ok trail' →
      ∃ cost ≤ budget, trail'.length ≤ trail.length + cost
        ∧ ∀ back left, t.arrive mode maxLinkSize (cost + left) ([] ++ back) trail
            = t.arrive mode maxLinkSize left back trail' := by
    intro budget trail h
    rw [course_nil] at h
    injection h with h
    rw [h]
    refine ⟨0, Nat.zero_le _, Nat.le_refl _, fun back left => ?_⟩
    rw [Nat.zero_add, List.nil_append]
  intro budget
  induction budget with
  | zero =>
      intro front trail hstands h
      cases front with
      | nil => exact hend 0 trail h
      | cons name front => cases h
  | succ budget ih =>
      intro front trail hstands h
      cases front with
      | nil => exact hend (budget + 1) trail h
      | cons name front =>
          obtain ⟨d, hd⟩ := hstands.directory
          have hcut : ∀ back left,
              t.arrive mode maxLinkSize (left + 1) (name :: front ++ back) trail
                = match t.step mode maxLinkSize name front trail with
                  | .onward pending trail => t.arrive mode maxLinkSize left (pending ++ back) trail
                  | .arrived trail => t.arrive mode maxLinkSize left back trail
                  | .stuck failure => .error failure := by
            intro back left
            rw [arrive_of_directory hd]
            exact wf.course_cons_append hd name front back
          rw [course] at h
          cases hstep : t.step mode maxLinkSize name front trail with
          | onward pending₁ trail₁ =>
              rw [hstep] at h
              obtain ⟨hstands₁, hlength₁⟩ := wf.stands_of_step hd hstep
              obtain ⟨cost, hcost, hlength, harrive⟩ := ih pending₁ trail₁ hstands₁ h
              refine ⟨cost + 1, by omega, by omega, fun back left => ?_⟩
              rw [show cost + 1 + left = cost + left + 1 by omega, hcut, hstep]
              exact harrive back left
          | arrived trail₁ =>
              rw [hstep] at h
              injection h with h
              have htrail₁ := (reaches_of_step hd hstep).2
              have hlength : trail'.length ≤ trail.length + 1 := by
                rw [← h, htrail₁]
                exact Nat.le_refl _
              refine ⟨1, by omega, hlength, fun back left => ?_⟩
              rw [Nat.add_comm 1 left, hcut, hstep, ← h]
          | stuck failure =>
              rw [hstep] at h
              cases h

/-- From the root, with what is left of the budget at the cut. -/
theorem WellFormed.course_append (wf : t.WellFormed) {front : List Name}
    (h : t.course mode maxLinkSize budget front [] = .ok trail) :
    ∃ left, trail.length + left ≤ budget ∧ ∀ back,
      t.course mode maxLinkSize budget (front ++ back) []
        = t.arrive mode maxLinkSize left back trail := by
  obtain ⟨cost, hcost, hlength, harrive⟩ :=
    wf.arrive_append budget front [] (.inl ⟨root, spelled_nil⟩) h
  obtain ⟨left, rfl⟩ := Nat.exists_eq_add_of_le hcost
  rw [List.length_nil, Nat.zero_add] at hlength
  refine ⟨left, by omega, fun back => ?_⟩
  rw [← arrive_of_directory spelled_nil]
  exact harrive back left

/-- A queue that fails, fails in the same way with other names behind it. -/
theorem WellFormed.course_append_of_error (wf : t.WellFormed) {failure : Failure}
    (back : List Name) :
    ∀ (budget : Nat) (front trail : List Name), t.Stands front trail →
      t.course mode maxLinkSize budget front trail = .error failure →
      t.course mode maxLinkSize budget (front ++ back) trail = .error failure := by
  intro budget
  induction budget with
  | zero =>
      intro front trail _ h
      cases front with
      | nil => cases h
      | cons name front => exact h
  | succ budget ih =>
      intro front trail hstands h
      cases front with
      | nil => cases h
      | cons name front =>
          obtain ⟨d, hd⟩ := hstands.directory
          rw [List.cons_append, wf.course_cons_append hd]
          rw [course] at h
          cases hstep : t.step mode maxLinkSize name front trail with
          | onward pending trail₁ =>
              rw [hstep] at h
              have hstands₁ : t.Stands pending trail₁ := (wf.stands_of_step hd hstep).1
              cases pending with
              | nil =>
                  have hdone : Except.ok trail₁ = .error failure := course_nil.symm.trans h
                  cases hdone
              | cons next pending =>
                  obtain ⟨c, hc⟩ := hstands₁.directory
                  rw [← ih _ _ hstands₁ h]
                  exact arrive_of_directory hc
          | arrived trail₁ =>
              rw [hstep] at h
              cases h
          | stuck failure' =>
              rw [hstep] at h
              exact h

/-- A trail that can be reached is reached by its own names, one for one. -/
theorem WellFormed.arrive_trail (wf : t.WellFormed) (hplain : ∀ n ∈ trail, IsPlainName n)
    (hreaches : t.Reaches mode trail) (back : List Name) (left : Nat) :
    t.arrive mode maxLinkSize (trail.length + left) (trail.reverse ++ back) []
      = t.arrive mode maxLinkSize left back trail := by
  induction trail generalizing back left with
  | nil => rw [List.length_nil, Nat.zero_add, List.reverse_nil, List.nil_append]
  | cons name trail ih =>
      have hname : IsPlainName name := hplain name List.mem_cons_self
      have hplain' : ∀ n ∈ trail, IsPlainName n := fun n hn =>
        hplain n (List.mem_cons_of_mem _ hn)
      -- everything before the last name is a directory, so the name can be taken
      have htaken : ∀ d, t.spelled trail = some (.directory d) →
          t.step mode maxLinkSize name [] trail = .onward [] (name :: trail)
            ∨ t.step mode maxLinkSize name [] trail = .arrived (name :: trail) →
          t.arrive mode maxLinkSize ((name :: trail).length + left)
              ((name :: trail).reverse ++ back) []
            = t.arrive mode maxLinkSize left back (name :: trail) := by
        intro d hd hstep
        rw [List.length_cons, List.reverse_cons, List.append_assoc, List.singleton_append,
          show trail.length + 1 + left = trail.length + (left + 1) by omega,
          ih hplain' (.directory d hd), arrive_of_directory hd]
        refine (wf.course_cons_append hd name [] back).trans ?_
        rcases hstep with hstep | hstep
        · rw [hstep]
          rfl
        · rw [hstep]
      cases hreaches with
      | directory c hspelled =>
          obtain ⟨d, hd, hentry⟩ := directory_of_spelled_cons hspelled
          exact htaken d hd (.inl (step_directory hd hname.ne_dot hname.ne_dotDot hentry))
      | file hspelled =>
          obtain ⟨d, hd, hentry⟩ := directory_of_spelled_cons hspelled
          exact htaken d hd (.inl (step_file hd hname.ne_dot hname.ne_dotDot hentry))
      | missing d hmode hd hentry =>
          refine htaken d hd (.inr ?_)
          rw [step_missing hd hname.ne_dot hname.ne_dotDot hentry, if_pos ⟨hmode, rfl⟩]

end PathResolution.Tree
