/-
The heads of the loop of a resolution.

Before every name that it takes a resolution is at the head of its loop. `Heads`
lists these moments, against any filesystem: what the loop holds and the state
of the filesystem after so many names. The budget has no say in it, so the heads
are the run of a resolution that has no budget. One that has a budget goes on
from each head for which its budget suffices, with what is left of it
(`Heads.run_eq`).

How a resolution ends can be read off its heads (`Heads.ends`): nothing waits,
or the budget is spent, or the name that is taken does not lead to another head.
And whatever is asked through a handle is asked through the one that the cursor
holds at a head: a move asks for the new directory first, and behind it there
are only closes (`takeName_asked`, `asked_at_head`).
-/
import PathResolution.Proofs.Handles.Ledger
import PathResolution.Proofs.Resolution.Spelling

namespace PathResolution

variable {σ : Type}

-- ================================================================= heads

/-- The heads of the loop of a resolution of `path` that starts in the state
`s`: after so many names, what the loop holds and the state that the filesystem
is in. -/
inductive Heads (answer : Dialogue.Answering σ) (mode : ExistenceMode) (maxLinkSize : Nat)
    (path : Text) (s : σ) : (taken : Nat) → Visit → σ → Prop
  /-- The place to start from is known, and the root is open. -/
  | first {directory : Text} {cursor : Cursor} :
      ((startingDirectory path).run answer s).value = .ok directory →
      (Cursor.closed.enter.run answer ((startingDirectory path).run answer s).state).value
        = (.ok (), cursor) →
      Heads answer mode maxLinkSize path s 0 ⟨startingNames path directory, [], cursor⟩
        (Cursor.closed.enter.run answer ((startingDirectory path).run answer s).state).state
  /-- A name is taken. -/
  | next {taken : Nat} {name : Name} {pending trail : List Name} {cursor : Cursor} {s' : σ}
      {v : Visit} :
      Heads answer mode maxLinkSize path s taken ⟨name :: pending, trail, cursor⟩ s' →
      ((takeName mode maxLinkSize name ⟨pending, trail, cursor⟩).run answer s').value
        = .onward v →
      Heads answer mode maxLinkSize path s (taken + 1) v
        ((takeName mode maxLinkSize name ⟨pending, trail, cursor⟩).run answer s').state

section

variable {answer : Dialogue.Answering σ} {mode : ExistenceMode} {maxLinkSize taken : Nat}
  {path : Text} {s s' : σ} {v : Visit}

/-- What waits at a head are names, and what was committed are plain ones. -/
theorem Heads.wellSpelt (h : Heads answer mode maxLinkSize path s taken v s') : v.WellSpelt := by
  induction h with
  | first _ _ => exact ⟨fun _ hn => isName_of_mem_startingNames hn, nofun⟩
  | @next taken name pending trail cursor s' v _ hvalue ih =>
      have hname : IsName name := ih.pending name List.mem_cons_self
      have hv : (⟨pending, trail, cursor⟩ : Visit).WellSpelt :=
        ⟨fun n hn => ih.pending n (List.mem_cons_of_mem _ hn), ih.trail⟩
      -- the unknown stages hold for every budget, so any one will do
      have hhead : Cursor.Stages.unknown.head (0 + 1) cursor () := trivial
      have hspelt : ((takeName mode maxLinkSize name ⟨pending, trail, cursor⟩).run answer
          s').value.WellSpelt :=
        ((takeName_follows Cursor.Stages.unknown_kept hv hname hhead).run_anything answer s').1
      rw [hvalue] at hspelt
      exact hspelt

/-- A resolution goes on from a head with what is left of its budget, and ends
as it ends from there. -/
theorem Heads.run_eq (h : Heads answer mode maxLinkSize path s taken v s') (shown : Text)
    {limits : Limits} (hsize : limits.maxLinkSize = maxLinkSize) {left : Nat}
    (hbudget : limits.loopBudget = taken + left) :
    let whole := (canonicalPathShown shown limits mode path).run answer s
    let fromHere := ((takeNames mode maxLinkSize left v).bind leave).run answer s'
    whole.value = fromHere.value.mapError (·.reportedAt path) ∧ whole.state = fromHere.state := by
  induction h generalizing left with
  | first hdirectory henter =>
      rw [Nat.zero_add] at hbudget
      simp only [canonicalPathShown, visitNames, Dialogue.run_bind, hdirectory, henter, hsize,
        hbudget, Dialogue.run_tell, Dialogue.run_done, and_self]
  | next _ hvalue ih =>
      obtain ⟨hend, hstate⟩ := ih (show limits.loopBudget = _ + (left + 1) by omega)
      simp only [takeNames, Dialogue.run_bind, hvalue] at hend hstate ⊢
      exact ⟨hend, hstate⟩

/-- What a resolution asks last is what it asks from a head on. -/
theorem Heads.asked_from (h : Heads answer mode maxLinkSize path s taken v s') (shown : Text)
    {limits : Limits} (hsize : limits.maxLinkSize = maxLinkSize) {left : Nat}
    (hbudget : limits.loopBudget = taken + left) :
    ((takeNames mode maxLinkSize left v).bind leave).asked answer s'
      <:+ (canonicalPathShown shown limits mode path).asked answer s := by
  induction h generalizing left with
  | first hdirectory henter =>
      rw [Nat.zero_add] at hbudget
      simp only [canonicalPathShown, visitNames, Dialogue.asked_bind, hdirectory, henter, hsize,
        hbudget, Dialogue.asked, List.append_nil, ← List.append_assoc]
      rw [List.append_assoc]
      exact List.suffix_append _ _
  | @next taken name pending trail cursor s' v _ hvalue ih =>
      have hlater : ((takeNames mode maxLinkSize left v).bind leave).asked answer
            ((takeName mode maxLinkSize name ⟨pending, trail, cursor⟩).run answer s').state
          <:+ ((takeNames mode maxLinkSize (left + 1) ⟨name :: pending, trail, cursor⟩).bind
            leave).asked answer s' := by
        simp only [takeNames, Dialogue.asked_bind, Dialogue.run_bind, hvalue, List.append_assoc]
        exact List.suffix_append _ _
      exact hlater.trans (ih (show limits.loopBudget = _ + (left + 1) by omega))

/-- Before a name was taken there was a head. -/
theorem Heads.earlier (h : Heads answer mode maxLinkSize path s (taken + 1) v s') :
    ∃ name pending trail cursor s₁,
      Heads answer mode maxLinkSize path s taken ⟨name :: pending, trail, cursor⟩ s₁ := by
  cases h with
  | next hhead _ => exact ⟨_, _, _, _, _, hhead⟩

-- =========================================================== ends of runs

/-- How the loop ends that has this budget in all. -/
inductive LoopEnds (answer : Dialogue.Answering σ) (mode : ExistenceMode) (maxLinkSize : Nat)
    (path : Text) (s : σ) (budget : Nat) : LoopAnswer → Prop
  /-- No name waits. -/
  | allTaken {taken : Nat} {trail : List Name} {cursor : Cursor} {s' : σ} : taken ≤ budget →
      Heads answer mode maxLinkSize path s taken ⟨[], trail, cursor⟩ s' →
      LoopEnds answer mode maxLinkSize path s budget (.ok trail, cursor)
  /-- A name waits, and as many as the budget allows were taken. -/
  | outOfBudget {name : Name} {pending trail : List Name} {cursor : Cursor} {s' : σ} :
      Heads answer mode maxLinkSize path s budget ⟨name :: pending, trail, cursor⟩ s' →
      LoopEnds answer mode maxLinkSize path s budget
        (.error (.resolution (.at Errno.tooManyLinks (trailPath (name :: trail)))), cursor)
  /-- The name that is taken is missing and kept. -/
  | arrived {taken : Nat} {name : Name} {pending trail trail' : List Name}
      {cursor cursor' : Cursor} {s' : σ} : taken < budget →
      Heads answer mode maxLinkSize path s taken ⟨name :: pending, trail, cursor⟩ s' →
      ((takeName mode maxLinkSize name ⟨pending, trail, cursor⟩).run answer s').value
        = .arrived trail' cursor' →
      LoopEnds answer mode maxLinkSize path s budget (.ok trail', cursor')
  /-- The name cannot be taken. -/
  | stuck {taken : Nat} {name : Name} {pending trail : List Name} {cursor cursor' : Cursor}
      {s' : σ} {failure : Failure} : taken < budget →
      Heads answer mode maxLinkSize path s taken ⟨name :: pending, trail, cursor⟩ s' →
      ((takeName mode maxLinkSize name ⟨pending, trail, cursor⟩).run answer s').value
        = .stuck failure cursor' →
      LoopEnds answer mode maxLinkSize path s budget (.error failure, cursor')

/-- The loop that goes on from a head ends at a head that it comes to from
there. -/
theorem Heads.ends (h : Heads answer mode maxLinkSize path s taken v s') (left : Nat) :
    LoopEnds answer mode maxLinkSize path s (taken + left)
      ((takeNames mode maxLinkSize left v).run answer s').value := by
  induction left generalizing taken v s' with
  | zero =>
      obtain ⟨pending, trail, cursor⟩ := v
      cases pending with
      | nil => exact .allTaken (Nat.le_add_right _ _) h
      | cons name pending => exact .outOfBudget h
  | succ left ih =>
      obtain ⟨pending, trail, cursor⟩ := v
      cases pending with
      | nil => exact .allTaken (Nat.le_add_right _ _) h
      | cons name pending =>
          have htaken : taken < taken + (left + 1) := by omega
          simp only [takeNames, Dialogue.run_bind]
          cases hvalue : ((takeName mode maxLinkSize name ⟨pending, trail, cursor⟩).run answer
              s').value with
          | onward v =>
              rw [show taken + (left + 1) = taken + 1 + left by omega]
              exact ih (h.next hvalue)
          | arrived trail' cursor' => exact .arrived htaken h hvalue
          | stuck failure cursor' => exact .stuck htaken h hvalue

-- ============================================================== questions

/-- What the loop asks from a head on, it asks while it takes a name. -/
theorem Heads.asked {left : Nat} (h : Heads answer mode maxLinkSize path s taken v s')
    {question : Primitive} {s₁ : σ}
    (hasked : (question, s₁) ∈ (takeNames mode maxLinkSize left v).asked answer s') :
    ∃ taken' name pending trail cursor s₀, taken' < taken + left
      ∧ Heads answer mode maxLinkSize path s taken' ⟨name :: pending, trail, cursor⟩ s₀
      ∧ (question, s₁)
          ∈ (takeName mode maxLinkSize name ⟨pending, trail, cursor⟩).asked answer s₀ := by
  induction left generalizing taken v s' with
  | zero =>
      obtain ⟨pending, trail, cursor⟩ := v
      cases pending <;> cases hasked
  | succ left ih =>
      obtain ⟨pending, trail, cursor⟩ := v
      cases pending with
      | nil => cases hasked
      | cons name pending =>
          rw [takeNames, Dialogue.asked_bind] at hasked
          rcases List.mem_append.mp hasked with hnow | hlater
          · exact ⟨taken, name, pending, trail, cursor, s', by omega, h, hnow⟩
          · cases hvalue : ((takeName mode maxLinkSize name ⟨pending, trail, cursor⟩).run answer
                s').value with
            | onward v =>
                rw [hvalue] at hlater
                rw [show taken + (left + 1) = taken + 1 + left by omega]
                exact ih (h.next hvalue) hlater
            | arrived trail' cursor' =>
                rw [hvalue] at hlater
                cases hlater
            | stuck failure cursor' =>
                rw [hvalue] at hlater
                cases hlater

/-- The conversations in which nothing is asked through a handle. -/
def Protocol.withoutBase : Protocol Unit :=
  ⟨fun _ question => question.base? = none, fun _ _ _ => True, fun _ _ _ => ()⟩

/-- Nothing is asked through a handle, whatever the replies are. -/
abbrev Dialogue.WithoutBase {α : Type} (d : Dialogue α) : Prop :=
  d.Follows .withoutBase (fun _ _ => True) ()

theorem Dialogue.WithoutBase.base?_eq_none {α : Type} {d : Dialogue α} (h : d.WithoutBase)
    {question : Primitive} {s₁ : σ} (hasked : (question, s₁) ∈ d.asked answer s) :
    question.base? = none := by
  have honoured : Protocol.withoutBase.Honoured answer fun _ _ => True :=
    fun _ _ _ _ _ => ⟨trivial, trivial⟩
  obtain ⟨_, -, hpermits⟩ := h.asked honoured trivial hasked
  exact hpermits

theorem Cursor.replace_withoutBase (c : Cursor) (new : Option Handle) :
    (c.replace new).WithoutBase := by
  obtain ⟨handle?⟩ := c
  cases handle? with
  | none => trivial
  | some h => exact ⟨rfl, fun _ _ => trivial⟩

theorem Cursor.land_withoutBase (c : Cursor) (entry : LogEntry) (reply : Except Fault Handle) :
    (c.land entry reply).WithoutBase := by
  cases reply with
  | error fault => trivial
  | ok new =>
      refine (c.replace_withoutBase (some new)).bind fun a _ _ => ?_
      obtain ⟨outcome, moved⟩ := a
      cases outcome <;> trivial

theorem Cursor.enter_withoutBase (c : Cursor) : c.enter.WithoutBase := by
  refine ⟨rfl, fun reply _ => ?_⟩
  cases reply <;> trivial

theorem Cursor.reset_withoutBase (c : Cursor) : c.reset.WithoutBase :=
  ⟨rfl, fun reply _ => c.land_withoutBase _ reply⟩

theorem startingDirectory_withoutBase (path : Text) : (startingDirectory path).WithoutBase := by
  unfold startingDirectory
  split
  · trivial
  · refine ⟨rfl, fun reply _ => ?_⟩
    cases reply <;> trivial

theorem leave_withoutBase (a : LoopAnswer) : (leave a).WithoutBase := by
  refine (a.2.replace_withoutBase none).bind fun b _ _ => ?_
  obtain ⟨outcome, cursor⟩ := b
  cases outcome <;> trivial

theorem afterMove_withoutBase (path : Text) (trail pending : List Name) (a : Cursor.Answer Unit) :
    (afterMove path trail pending a).WithoutBase := by
  obtain ⟨outcome, cursor⟩ := a
  cases outcome <;> trivial

/-- Where a link leads is found out without the handle that is held: at the
root, or from where the cursor is already. -/
theorem followLink_withoutBase (name : Name) (target : Text) (v : Visit) :
    (followLink maxLinkSize name target v).WithoutBase := by
  unfold followLink
  split
  · trivial
  · split
    · trivial
    · split
      · trivial
      · show Dialogue.WithoutBase _
        split
        · exact v.cursor.reset_withoutBase.bind fun a _ _ => afterMove_withoutBase _ _ _ a
        · trivial

/-- A move asks through the handle that is held, before anything else. -/
theorem move_asked {c : Cursor} {target : Name} {entry : LogEntry} {there : Text}
    {trail pending : List Name} {question : Primitive} {base : Handle} {s₁ : σ}
    (hasked : (question, s₁) ∈ Dialogue.asked answer
      ((c.withHandle fun h => .ask (.openRelative h target) (c.land entry)).bind
        (afterMove there trail pending)) s)
    (hbase : question.base? = some base) : c = ⟨some base⟩ ∧ s₁ = s := by
  have hne : question.base? ≠ none := hbase ▸ nofun
  rw [Dialogue.asked_bind] at hasked
  rcases List.mem_append.mp hasked with hmove | hafter
  · obtain ⟨handle?⟩ := c
    cases handle? with
    | none => cases hmove
    | some h =>
        rcases List.mem_cons.mp hmove with heq | hland
        · obtain ⟨rfl, rfl⟩ := Prod.mk.inj heq
          obtain rfl : h = base := Option.some.inj hbase
          exact ⟨rfl, rfl⟩
        · exact absurd ((Cursor.land_withoutBase _ _ _).base?_eq_none hland) hne
  · exact absurd ((afterMove_withoutBase _ _ _ _).base?_eq_none hafter) hne

theorem afterUnreadable_asked {name : Name} {fault : Fault} {question : Primitive} {base : Handle}
    {s₁ : σ} (hasked : (question, s₁) ∈ (afterUnreadable mode name v fault).asked answer s)
    (hbase : question.base? = some base) : v.cursor = ⟨some base⟩ ∧ s₁ = s := by
  unfold afterUnreadable at hasked
  split at hasked
  · cases hasked
  · split at hasked
    · unfold commit at hasked
      split at hasked
      · cases hasked
      · exact move_asked hasked hbase
    · split at hasked <;> cases hasked

/-- What is asked through a handle while a name is taken is asked through the
handle of the cursor, with at most the target of a link read before. -/
theorem takeName_asked {name : Name} {question : Primitive} {base : Handle} {s₁ : σ}
    (hasked : (question, s₁) ∈ (takeName mode maxLinkSize name v).asked answer s)
    (hbase : question.base? = some base) :
    v.cursor = ⟨some base⟩ ∧ (s₁ = s ∨ s₁ = (answer (.readLink base name) s).2) := by
  have hne : question.base? ≠ none := hbase ▸ nofun
  unfold takeName at hasked
  split at hasked
  · cases hasked
  · split at hasked
    · obtain ⟨hcursor, hs⟩ := move_asked hasked hbase
      exact ⟨hcursor, .inl hs⟩
    · obtain ⟨pending, trail, ⟨handle?⟩⟩ := v
      cases handle? with
      | none =>
          cases mode <;> cases hasked
      | some h =>
          rcases List.mem_cons.mp hasked with heq | hafter
          · obtain ⟨rfl, rfl⟩ := Prod.mk.inj heq
            obtain rfl : h = base := Option.some.inj hbase
            exact ⟨rfl, .inl rfl⟩
          · -- only a name that is no link leads to a move through the handle
            cases hreply : (answer (.readLink h name) s).1 with
            | ok target =>
                have hfollow : (question, s₁) ∈ (followLink maxLinkSize name target
                    ⟨pending, trail, ⟨some h⟩⟩).asked answer (answer (.readLink h name) s).2 := by
                  rw [hreply] at hafter
                  exact hafter
                exact absurd ((followLink_withoutBase name target _).base?_eq_none hfollow) hne
            | error fault =>
                have hunreadable : (question, s₁) ∈ (afterUnreadable mode name
                    ⟨pending, trail, ⟨some h⟩⟩ fault).asked answer
                      (answer (.readLink h name) s).2 := by
                  rw [hreply] at hafter
                  exact hafter
                obtain ⟨hcursor, hs⟩ := afterUnreadable_asked hunreadable hbase
                obtain rfl : h = base := Option.some.inj (congrArg Cursor.handle? hcursor)
                exact ⟨rfl, .inr hs⟩

/-- What a resolution asks through a handle, it asks through the handle that
the cursor holds at a head of its loop. -/
theorem asked_at_head {shown : Text} {limits : Limits} {question : Primitive} {base : Handle}
    {s₁ : σ} (hasked : (question, s₁) ∈ (canonicalPathShown shown limits mode path).asked answer s)
    (hbase : question.base? = some base) :
    ∃ taken name pending trail s₀, taken < limits.loopBudget
      ∧ Heads answer mode limits.maxLinkSize path s taken
          ⟨name :: pending, trail, ⟨some base⟩⟩ s₀
      ∧ (s₁ = s₀ ∨ s₁ = (answer (.readLink base name) s₀).2) := by
  have hne : question.base? ≠ none := hbase ▸ nofun
  rw [canonicalPathShown, Dialogue.asked_bind] at hasked
  rcases List.mem_append.mp hasked with hstart | hasked
  · exact absurd ((startingDirectory_withoutBase path).base?_eq_none hstart) hne
  · cases hdirectory : ((startingDirectory path).run answer s).value with
    | error failure =>
        rw [hdirectory] at hasked
        cases hasked
    | ok directory =>
        rw [hdirectory] at hasked
        simp only [Dialogue.asked, visitNames, Dialogue.asked_bind, List.append_nil] at hasked
        rcases List.mem_append.mp hasked with henter | hasked
        · exact absurd (Cursor.closed.enter_withoutBase.base?_eq_none henter) hne
        · cases hentered : (Cursor.closed.enter.run answer
              ((startingDirectory path).run answer s).state).value with
          | mk entered cursor =>
              rw [hentered] at hasked
              cases entered with
              | error fault => cases hasked
              | ok _ =>
                  rw [Dialogue.asked_bind] at hasked
                  rcases List.mem_append.mp hasked with hloop | hleave
                  · obtain ⟨taken, name, pending, trail, cursor, s₀, htaken, hhead, hname⟩ :=
                      (Heads.first hdirectory hentered).asked hloop
                    obtain ⟨rfl, hs₁⟩ := takeName_asked hname hbase
                    rw [Nat.zero_add] at htaken
                    exact ⟨taken, name, pending, trail, s₀, htaken, hhead, hs₁⟩
                  · exact absurd ((leave_withoutBase _).base?_eq_none hleave) hne

end

end PathResolution
