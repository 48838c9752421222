/-
Filesystems that keep count of their handles.

The filesystem in memory does: its handle table gives out numbers that were
never open, and a call either opens one handle, or closes one, or leaves the
whole store as it is (`Store.answer_of_opened`, `Store.answer_otherwise`). And
planned faults spoil nothing: a call that is struck does nothing at all, and
every other call is answered as before (`HandleKeeping.injecting`). So what is
proved of a filesystem that keeps count is proved of it under every schedule
of faults. And it is proved of every filesystem that opens no handle that is
still open: such a filesystem keeps count by the record of its calls
(`HandleKeeping.ofFresh`).
-/
import PathResolution.Injection
import PathResolution.Proofs.Handles.Ledger
import PathResolution.Proofs.Handles.Table
import PathResolution.Store

namespace PathResolution

-- =========================================================== in memory

namespace Store

variable {s : Store} {h : Handle}

/-- A call that opens a handle opens the next one, and changes nothing else. -/
theorem answer_of_opened {question : Primitive}
    (ho : Call.opened? ⟨question, (answer question s).1⟩ = some h) :
    h = s.handles.next
      ∧ ∃ d, (answer question s).2 = { s with handles := (s.handles.add d).2 } := by
  cases question with
  | openRoot =>
      injection ho with ho
      exact ⟨ho.symm, Tree.root, rfl⟩
  | openRelative base name =>
      simp only [answer, openRelative] at ho ⊢
      split at ho
      · cases ho
      · next d hd =>
        split at ho
        · cases ho
        · next found hfound =>
          injection ho with ho
          exact ⟨ho.symm, found, rfl⟩
        · cases ho
  | readLink base name => cases ho
  | close handle => cases ho
  | workingDirectory => cases ho

/-- A call that neither opens nor closes a handle leaves the store as it is. -/
theorem answer_otherwise {question : Primitive}
    (ho : Call.opened? ⟨question, (answer question s).1⟩ = none)
    (hc : ∀ h, question ≠ .close h) : (answer question s).2 = s := by
  cases question with
  | openRoot => cases ho
  | openRelative base name =>
      simp only [answer, openRelative] at ho ⊢
      split at ho
      · rfl
      · split at ho
        · rfl
        · cases ho
        · rfl
  | readLink base name => rfl
  | close handle => exact absurd rfl (hc handle)
  | workingDirectory => rfl

theorem answer_close_of_some {closed : HandleTable} (hc : s.handles.close? h = some closed) :
    answer (.close h) s = (.ok (), { s with handles := closed }) := by
  show s.closeHandle h = _
  rw [closeHandle, hc]

theorem answer_close_of_none (hc : s.handles.close? h = none) :
    answer (.close h) s = (.error badHandle, s) := by
  show s.closeHandle h = _
  rw [closeHandle, hc]

/-- All that a call can do to the store: open a handle, close one, or leave the
store as it is. -/
theorem answer_cases (question : Primitive) (s : Store) :
    (∃ d, (answer question s).2 = { s with handles := (s.handles.add d).2 })
      ∨ (∃ h closed, s.handles.close? h = some closed
          ∧ (answer question s).2 = { s with handles := closed })
      ∨ (answer question s).2 = s := by
  rcases Call.trichotomy ⟨question, (answer question s).1⟩ with
    ⟨h, ho, -⟩ | ⟨h, reply, heq⟩ | ⟨ho, hc, -⟩
  · exact .inl (answer_of_opened ho).2
  · obtain ⟨rfl, -⟩ := Call.mk.inj heq
    cases hc : s.handles.close? h with
    | none =>
        rw [answer_close_of_none hc]
        exact .inr (.inr rfl)
    | some closed =>
        rw [answer_close_of_some hc]
        exact .inr (.inl ⟨h, closed, hc, rfl⟩)
  · have hnoClose : ∀ h, question ≠ .close h := by
      intro h heq
      rw [heq] at hc
      cases hc
    exact .inr (.inr (answer_otherwise ho hnoClose))

/-- The filesystem in memory keeps count of its handles. -/
def handleKeeping : HandleKeeping answer where
  valid s := s.handles.WellFormed
  opened s := s.handles.handles
  valid_answer := by
    intro s question wf
    rcases answer_cases question s with ⟨d, hs⟩ | ⟨h, closed, hc, hs⟩ | hs
    · rw [hs]
      exact wf.add d
    · rw [hs]
      exact wf.close hc
    · rw [hs]
      exact wf
  opened_of_open := by
    intro s question h wf ho
    obtain ⟨rfl, d, hs⟩ := answer_of_opened ho
    rw [hs]
    refine ⟨?_, HandleTable.handles_add d⟩
    rw [HandleTable.mem_handles, wf.directory?_next]
    simp
  opened_of_close := by
    intro s h wf hok
    cases hc : s.handles.close? h with
    | none =>
        rw [answer_close_of_none hc] at hok
        cases hok
    | some closed =>
        rw [answer_close_of_some hc]
        exact HandleTable.handles_close hc
  opened_of_failed_close := by
    intro s h fault wf herror
    cases hc : s.handles.close? h with
    | none => rw [answer_close_of_none hc]
    | some closed =>
        rw [answer_close_of_some hc] at herror
        cases herror
  opened_otherwise := by
    intro s question wf ho hc
    rw [answer_otherwise ho hc]

end Store

-- ======================================================= under injection

namespace HandleKeeping

variable {σ : Type} {answer : Dialogue.Answering σ}

/-- A call that is struck fails, and touches nothing but the plan. -/
theorem injecting_of_struck {s : Injected σ} {question : Primitive} {fault : Fault}
    (h : (Injection.strike question s.planned).1 = some fault) :
    injecting answer question s
      = (.error fault, { s with planned := (Injection.strike question s.planned).2 }) := by
  unfold injecting
  rw [← Prod.mk.eta (p := Injection.strike question s.planned), h]

/-- A call that is not struck is answered as before. -/
theorem injecting_of_passed {s : Injected σ} {question : Primitive}
    (h : (Injection.strike question s.planned).1 = none) :
    injecting answer question s
      = ((answer question s.state).1,
          ⟨(answer question s.state).2, (Injection.strike question s.planned).2⟩) := by
  unfold injecting
  rw [← Prod.mk.eta (p := Injection.strike question s.planned), h]

theorem opened?_error (question : Primitive) (fault : Fault) :
    Call.opened? ⟨question, .error fault⟩ = none := by
  cases question <;> rfl

/-- A filesystem that keeps count still does so when faults are planned. -/
def injecting (keeping : HandleKeeping answer) :
    HandleKeeping (PathResolution.injecting answer) where
  valid s := keeping.valid s.state
  opened s := keeping.opened s.state
  valid_answer := by
    intro s question hs
    cases hstrike : (Injection.strike question s.planned).1 with
    | some fault =>
        rw [injecting_of_struck hstrike]
        exact hs
    | none =>
        rw [injecting_of_passed hstrike]
        exact keeping.valid_answer _ _ hs
  opened_of_open := by
    intro s question h hs ho
    cases hstrike : (Injection.strike question s.planned).1 with
    | some fault =>
        rw [injecting_of_struck hstrike, opened?_error] at ho
        cases ho
    | none =>
        rw [injecting_of_passed hstrike] at ho ⊢
        exact keeping.opened_of_open _ _ h hs ho
  opened_of_close := by
    intro s h hs hok
    cases hstrike : (Injection.strike (.close h) s.planned).1 with
    | some fault =>
        rw [injecting_of_struck hstrike] at hok
        cases hok
    | none =>
        rw [injecting_of_passed hstrike] at hok ⊢
        exact keeping.opened_of_close _ h hs hok
  opened_of_failed_close := by
    intro s h fault hs herror
    cases hstrike : (Injection.strike (.close h) s.planned).1 with
    | some fault' => rw [injecting_of_struck hstrike]
    | none =>
        rw [injecting_of_passed hstrike] at herror ⊢
        exact keeping.opened_of_failed_close _ h fault hs herror
  opened_otherwise := by
    intro s question hs ho hc
    cases hstrike : (Injection.strike question s.planned).1 with
    | some fault => rw [injecting_of_struck hstrike]
    | none =>
        rw [injecting_of_passed hstrike] at ho ⊢
        exact keeping.opened_otherwise _ _ hs ho hc

end HandleKeeping

-- =========================================================== by record

/-- The handles that were opened along a history and not closed since. A close
that fails closes nothing. -/
def stillOpen : List Call → Finset Handle
  | [] => ∅
  | call :: past =>
    match call.opened?, call.closed? with
    | some h, _ => insert h (stillOpen past)
    | none, some h => if call.failsToClose then stillOpen past else (stillOpen past).erase h
    | none, none => stillOpen past

section

variable {σ : Type} (answer : Dialogue.Answering σ)

/-- What can be on record of a filesystem that was in state `s`, whatever was
asked of it since. -/
inductive Dialogue.OnRecord (s : σ) : Dialogue.Recorded σ → Prop
  | nothing : OnRecord s ⟨s, []⟩
  | call {r : Dialogue.Recorded σ} (question : Primitive) : OnRecord s r →
      OnRecord s (Dialogue.recording answer question r).2

/-- Nothing more is asked of a filesystem than that it opens no handle that is
still open. Then it keeps count by the record of its calls. -/
def HandleKeeping.ofFresh (s : σ)
    (hfresh : ∀ r, Dialogue.OnRecord answer s r → ∀ question h,
      Call.opened? ⟨question, (answer question r.state).1⟩ = some h → h ∉ stillOpen r.calls) :
    HandleKeeping (Dialogue.recording answer) where
  valid := Dialogue.OnRecord answer s
  opened r := stillOpen r.calls
  valid_answer _ question hr := .call question hr
  opened_of_open := by
    intro r question h hr ho
    refine ⟨hfresh r hr question h ho, ?_⟩
    show stillOpen (⟨question, (answer question r.state).1⟩ :: r.calls) = _
    rw [stillOpen, show Call.opened? ⟨question, (answer question r.state).1⟩ = some h from ho]
  opened_of_close := by
    intro r h _ hok
    show stillOpen (⟨.close h, (answer (.close h) r.state).1⟩ :: r.calls) = _
    rw [show (answer (.close h) r.state).1 = .ok () from hok]
    rfl
  opened_of_failed_close := by
    intro r h fault _ herror
    show stillOpen (⟨.close h, (answer (.close h) r.state).1⟩ :: r.calls) = _
    rw [show (answer (.close h) r.state).1 = .error fault from herror]
    rfl
  opened_otherwise := by
    intro r question _ ho hc
    have hclosed : Call.closed? ⟨question, (answer question r.state).1⟩ = none := by
      cases question with
      | close h => exact absurd rfl (hc h)
      | _ => rfl
    show stillOpen (⟨question, (answer question r.state).1⟩ :: r.calls) = _
    rw [stillOpen, hclosed,
      show Call.opened? ⟨question, (answer question r.state).1⟩ = none from ho]

end

end PathResolution
