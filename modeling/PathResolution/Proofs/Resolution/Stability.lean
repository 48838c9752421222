/-
Strict answers outlive the growth of the tree.

A strict resolution that gives an answer has found every name that it looked
up, be it a directory, a file or a link, since it does not put up with a missing
one. Builders only add entries where there were none, so each of its look-ups
finds the same afterwards, and the resolution takes the same names in the same
places (`Tree.Grows.course_eq`). A lenient answer has no such life: the name
that was missing can be made a link.
-/
import PathResolution.Proofs.Resolution.Faithful

namespace PathResolution

-- =============================================================== courses

namespace Tree

variable {t t' : Tree} {maxLinkSize : Nat} {name : Name} {pending trail trail' : List Name}

/-- A strict step is the same in a tree that has grown, or is stuck. -/
theorem Grows.step_eq (h : t.Grows t') (name : Name) (pending trail : List Name) :
    t'.step .exact maxLinkSize name pending trail = t.step .exact maxLinkSize name pending trail
      ∨ ∃ failure, t.step .exact maxLinkSize name pending trail = .stuck failure := by
  by_cases hdot : name = dot
  · left
    rw [hdot, step_dot, step_dot]
  · by_cases hdotDot : name = dotDot
    · left
      rw [hdotDot, step_dotDot, step_dotDot]
    · cases hspelled : t.spelled (name :: trail) with
      | some node =>
          left
          unfold step
          rw [hspelled, h.spelled_eq hspelled]
      | none =>
          right
          have hstrict : ¬ (ExistenceMode.exact = .missingOk ∧ pending.isEmpty = true) := nofun
          unfold step
          rw [if_neg hdot, if_neg hdotDot, hspelled]
          exact ⟨_, if_neg hstrict⟩

/-- A strict course that leads somewhere leads there still. -/
theorem Grows.course_eq (h : t.Grows t') :
    ∀ (budget : Nat) (pending trail : List Name),
      t.course .exact maxLinkSize budget pending trail = .ok trail' →
      t'.course .exact maxLinkSize budget pending trail = .ok trail' := by
  intro budget
  induction budget with
  | zero =>
      intro pending trail hcourse
      cases pending with
      | nil => exact hcourse
      | cons name pending => cases hcourse
  | succ budget ih =>
      intro pending trail hcourse
      cases pending with
      | nil => exact hcourse
      | cons name pending =>
          rw [course] at hcourse ⊢
          rcases h.step_eq name pending trail with hsame | ⟨failure, hstuck⟩
          · rw [hsame]
            cases hstep : t.step .exact maxLinkSize name pending trail with
            | onward pending₁ trail₁ =>
                rw [hstep] at hcourse
                exact ih pending₁ trail₁ hcourse
            | arrived trail₁ =>
                rw [hstep] at hcourse
                exact hcourse
            | stuck failure =>
                rw [hstep] at hcourse
                cases hcourse
          · rw [hstuck] at hcourse
            cases hcourse

end Tree

-- =============================================================== answers

/-- What a strict resolution answers, it answers after any calls of builders as
well, whether these succeed or not. -/
theorem strict_answer_outlives_building (s : Store) (hs : s.Reachable) (limits : Limits)
    (env : Environment) (path : Text) (exact : Value) (hexact : exact.mode? env = .ok .exact)
    (canonical : Text) (h : s.resolved limits env path exact = .ok (.text canonical))
    (calls : List Store.Building) :
    (s.buildAll calls).resolved limits env path exact = .ok (.text canonical) := by
  obtain ⟨hbuilt, hgrows, hdirectory⟩ := hs.buildAll calls
  obtain ⟨trail, hcourse, rfl⟩ := (Store.resolved_eq_ok_iff hs.wellFormed hexact).mp h
  rw [Store.resolved_eq_ok_iff hbuilt.wellFormed hexact, hdirectory]
  exact ⟨trail, hgrows.course_eq _ _ _ hcourse, rfl⟩

/-- Neither the link nor the file that it leads to can be built over. -/
theorem strict_answer_outlives_building_over_it :
    (Store.sample.buildAll [.makeLink (text "/") (text "/l"), .makeFile (text "/d/f"),
        .makeDirectory (text "/l/f") true true, .makeDirectory (text "/d/../l") true false,
        .makeFile (text "/l/./f")]).resolved .standard .empty (text "../l/f") (.truth true)
      = .ok (.text (text "/d/f")) := by
  have h : Store.sample.resolved .standard .empty (text "../l/f") (.truth true)
      = .ok (.text (text "/d/f")) := rfl
  exact strict_answer_outlives_building .sample Store.sample_reachable .standard .empty
    (text "../l/f") (.truth true) rfl (text "/d/f") h _

-- a lenient answer does not outlive a link that is made of the missing name
example : Store.sample.resolved .standard .empty (text "/g") (.truth false)
      = .ok (.text (text "/g"))
    ∧ (Store.sample.buildAll [.makeLink (text "d") (text "/g")]).resolved .standard .empty
        (text "/g") (.truth false) = .ok (.text (text "/d")) := ⟨rfl, rfl⟩

end PathResolution
