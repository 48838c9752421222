/-
The ledger of handles along a history of calls.

A history lists calls, the latest first. `held` reads off it which handles are
owed to the filesystem: those that were opened and have not been passed to a
close since, whether that close succeeded or not. A filesystem may give the
number of a closed handle out again, so what is counted is openings and not
numbers.

`handleProtocol` is the discipline of one who holds at most two handles at a
time, and two only until the next call: a handle is opened or a link is read
only with the single handle that is held, and a close is only for the one that
has been held longest. `Protocol.Regular` says of a whole history that every
call was in order when it was made, and the counting lemmas follow from that
alone.

`HandleKeeping` is the other side: a filesystem that can say which handles are
open, and opens none that is open already. Such a filesystem honours the
discipline, and its count of open handles moves with the ledger
(`HandleKeeping.honoured`).
-/
import Mathlib.Data.Finset.Card
import PathResolution.Proofs.Protocol

namespace PathResolution

-- ============================================================= histories

/-- A protocol whose notes are the calls themselves, the latest first. -/
def Protocol.ofHistory (permits : List Call → Primitive → Prop)
    (expects : List Call → (question : Primitive) → question.Reply → Prop) :
    Protocol (List Call) :=
  ⟨permits, expects, fun past question reply => ⟨question, reply⟩ :: past⟩

/-- Every call was in order when it was made, and its reply was to be
expected. -/
def Protocol.Regular (p : Protocol (List Call)) : List Call → Prop
  | [] => True
  | call :: past =>
    p.permits past call.question ∧ p.expects past call.question call.reply ∧ p.Regular past

theorem Protocol.Regular.earlier {p : Protocol (List Call)} {later earlier : List Call}
    (h : p.Regular (later ++ earlier)) : p.Regular earlier := by
  induction later with
  | nil => exact h
  | cons call later ih => exact ih h.2.2

-- ================================================================= calls

/-- The handle through which a question is put. -/
def Primitive.base? : Primitive → Option Handle
  | .openRelative base _ => some base
  | .readLink base _ => some base
  | .openRoot | .close _ | .workingDirectory => none

namespace Call

/-- The handle that a call opened. -/
def opened? : Call → Option Handle
  | ⟨.openRoot, .ok h⟩ => some h
  | ⟨.openRelative _ _, .ok h⟩ => some h
  | _ => none

/-- The handle that a call passed to a close. -/
def closed? : Call → Option Handle
  | ⟨.close h, _⟩ => some h
  | _ => none

def failsToClose : Call → Bool
  | ⟨.close _, .error _⟩ => true
  | _ => false

/-- A call opens a handle, or closes one, or leaves the handles alone. -/
theorem trichotomy (call : Call) :
    (∃ h, call.opened? = some h ∧ call.closed? = none ∧ call.failsToClose = false)
      ∨ (∃ h reply, call = ⟨.close h, reply⟩)
      ∨ (call.opened? = none ∧ call.closed? = none ∧ call.failsToClose = false) := by
  obtain ⟨question, reply⟩ := call
  cases question with
  | close h => exact .inr (.inl ⟨h, reply, rfl⟩)
  | openRoot =>
      cases reply with
      | ok h => exact .inl ⟨h, rfl, rfl, rfl⟩
      | error fault => exact .inr (.inr ⟨rfl, rfl, rfl⟩)
  | openRelative base name =>
      cases reply with
      | ok h => exact .inl ⟨h, rfl, rfl, rfl⟩
      | error fault => exact .inr (.inr ⟨rfl, rfl, rfl⟩)
  | readLink base name => exact .inr (.inr ⟨rfl, rfl, rfl⟩)
  | workingDirectory => exact .inr (.inr ⟨rfl, rfl, rfl⟩)

end Call

-- ================================================================ ledger

/-- The handles that were opened and not passed to a close since, the one that
was opened last first. -/
def held : List Call → List Handle
  | [] => []
  | call :: past =>
    match call.opened?, call.closed? with
    | some h, _ => h :: held past
    | none, some h => (held past).erase h
    | none, none => held past

theorem held_cons_of_opened {call : Call} {h : Handle} (ho : call.opened? = some h)
    (past : List Call) : held (call :: past) = h :: held past := by
  rw [held, ho]

@[simp]
theorem held_cons_close (h : Handle) (reply : Except Fault Unit) (past : List Call) :
    held (⟨.close h, reply⟩ :: past) = (held past).erase h := rfl

theorem held_cons_otherwise {call : Call} (ho : call.opened? = none)
    (hc : call.closed? = none) (past : List Call) : held (call :: past) = held past := by
  rw [held, ho, hc]

/-- A handover: the older of two handles is passed to a close, and the newer one
is held on. -/
theorem held_handover {new old : Handle} {past : List Call} (hheld : held past = [new, old])
    (hnew : new ∉ [old]) (reply : Except Fault Unit) :
    held (⟨.close old, reply⟩ :: past) = [new] := by
  have hne : new ≠ old := fun h => hnew (h ▸ List.mem_singleton_self old)
  rw [held_cons_close, hheld, List.erase_cons_tail (by simpa using hne), List.erase_cons_head]

/-- How many handles could not be given back. -/
def leaked (past : List Call) : Nat := past.countP Call.failsToClose

/-- How many handles that were opened along the history are still open: those
that are held, and those that could not be given back. -/
def live (past : List Call) : Nat := (held past).length + leaked past

/-- At most two handles at a time, links and directories only through a single
one, and the older one goes back first. When a handle could not be given back,
all that is left to do is to give back the others. The working directory is
asked for before anything else. -/
def handleProtocol : Protocol (List Call) :=
  .ofHistory
    (fun past question =>
      match question with
      | .openRoot => (held past).length ≤ 1 ∧ leaked past = 0
      | .openRelative base _ => held past = [base] ∧ leaked past = 0
      | .readLink base _ => held past = [base] ∧ leaked past = 0
      | .close h => (held past).getLast? = some h
      | .workingDirectory => past = [])
    (fun past question reply =>
      ∀ h, Call.opened? ⟨question, reply⟩ = some h → h ∉ held past)

/-- What is left of it for one who may hold any number of handles, and goes on
after a failed close: everything is asked through a handle that is held, and
only such a handle is passed to a close. -/
def ownershipProtocol : Protocol (List Call) :=
  .ofHistory
    (fun past question =>
      (∀ base, question.base? = some base → base ∈ held past)
        ∧ ∀ h, question = .close h → h ∈ held past)
    (fun past question reply =>
      ∀ h, Call.opened? ⟨question, reply⟩ = some h → h ∉ held past)

-- =================================================== regular histories

section

variable {past : List Call} {call : Call}

/-- Before a call that is no close, at most one handle is live. -/
theorem live_le_one (h : handleProtocol.permits past call.question)
    (hc : call.closed? = none) : live past ≤ 1 := by
  unfold live
  obtain ⟨question, reply⟩ := call
  cases question with
  | openRoot =>
      obtain ⟨hheld, hleaked⟩ : (held past).length ≤ 1 ∧ leaked past = 0 := h
      omega
  | openRelative base name =>
      obtain ⟨hheld, hleaked⟩ : held past = [base] ∧ leaked past = 0 := h
      rw [hheld, hleaked, List.length_singleton]
  | readLink base name =>
      obtain ⟨hheld, hleaked⟩ : held past = [base] ∧ leaked past = 0 := h
      rw [hheld, hleaked, List.length_singleton]
  | close handle => cases hc
  | workingDirectory =>
      have hpast : past = [] := h
      rw [hpast]
      exact Nat.zero_le _

theorem mem_held_of_base {base : Handle} (h : handleProtocol.permits past call.question)
    (hb : call.question.base? = some base) : base ∈ held past := by
  obtain ⟨question, reply⟩ := call
  cases question with
  | openRelative base' name =>
      obtain ⟨hheld, -⟩ : held past = [base'] ∧ leaked past = 0 := h
      injection hb with hb
      rw [hheld, hb]
      exact List.mem_singleton_self base
  | readLink base' name =>
      obtain ⟨hheld, -⟩ : held past = [base'] ∧ leaked past = 0 := h
      injection hb with hb
      rw [hheld, hb]
      exact List.mem_singleton_self base
  | openRoot => cases hb
  | close handle => cases hb
  | workingDirectory => cases hb

theorem mem_held_of_close {h : Handle} (hp : handleProtocol.permits past (.close h)) :
    h ∈ held past :=
  List.mem_of_getLast? hp

theorem leaked_cons (call : Call) (past : List Call) :
    leaked (call :: past) = leaked past + if call.failsToClose then 1 else 0 :=
  List.countP_cons

/-- At no moment are more than two handles live. -/
theorem live_le_two (h : handleProtocol.Regular past) : live past ≤ 2 := by
  induction past with
  | nil => exact Nat.zero_le _
  | cons call past ih =>
      obtain ⟨hpermits, -, hpast⟩ := h
      have htwo : (held past).length + leaked past ≤ 2 := ih hpast
      unfold live
      rw [leaked_cons]
      rcases call.trichotomy with ⟨handle, ho, hc, hf⟩ | ⟨handle, reply, rfl⟩ | ⟨ho, hc, hf⟩
      · have hone : (held past).length + leaked past ≤ 1 := live_le_one hpermits hc
        rw [held_cons_of_opened ho, List.length_cons, hf]
        simp only [Bool.false_eq_true, if_false]
        omega
      · have hmem : handle ∈ held past := mem_held_of_close hpermits
        have hpos : 0 < (held past).length := List.length_pos_of_mem hmem
        rw [held_cons_close, List.length_erase_of_mem hmem]
        split <;> omega
      · rw [held_cons_otherwise ho hc, hf]
        exact htwo

/-- The discipline is one of ownership. -/
theorem ownership_of_handleProtocol (h : handleProtocol.Regular past) :
    ownershipProtocol.Regular past := by
  induction past with
  | nil => trivial
  | cons call past ih =>
      obtain ⟨hpermits, hexpects, hpast⟩ := h
      refine ⟨⟨fun base hbase => mem_held_of_base hpermits hbase, ?_⟩, hexpects, ih hpast⟩
      intro handle hclose
      rw [hclose] at hpermits
      exact mem_held_of_close hpermits

/-- Every opening of a handle is matched by a close, except for the handles
that are still held. -/
theorem countP_opened_eq (h : ownershipProtocol.Regular past) (handle : Handle) :
    past.countP (fun call => call.opened? = some handle)
      = past.countP (fun call => call.closed? = some handle)
        + (held past).count handle := by
  induction past with
  | nil => rfl
  | cons call past ih =>
      obtain ⟨hpermits, -, hpast⟩ := h
      have ih := ih hpast
      rw [List.countP_cons, List.countP_cons]
      rcases call.trichotomy with ⟨other, ho, hc, -⟩ | ⟨other, reply, rfl⟩ | ⟨ho, hc, -⟩
      · rw [held_cons_of_opened ho, ho, hc, ih]
        by_cases hother : other = handle
        · simp [hother, Nat.add_assoc]
        · simp [hother]
      · have ho : Call.opened? ⟨.close other, reply⟩ = none := rfl
        have hc : Call.closed? ⟨.close other, reply⟩ = some other := rfl
        rw [held_cons_close, ho, hc, ih]
        by_cases hother : other = handle
        · have hpos : 0 < (held past).count handle :=
            List.count_pos_iff.mpr (hother ▸ hpermits.2 other rfl)
          simp only [hother, List.count_erase_self, reduceCtorEq, decide_false, decide_true,
            Bool.false_eq_true, if_false, if_true]
          omega
        · simp [hother, List.count_erase_of_ne (Ne.symm hother)]
      · rw [held_cons_otherwise ho hc, ho, hc, ih]
        simp

end

-- =========================================================== filesystems

/-- A filesystem that can say which handles are open. What it opens was not
open before, a close that succeeds closes, and nothing else opens or closes
anything: neither a call that fails nor a question that only looks. -/
structure HandleKeeping {σ : Type} (answer : Dialogue.Answering σ) where
  /-- The states that the filesystem can be in. -/
  valid : σ → Prop
  /-- The handles that are open. -/
  opened : σ → Finset Handle
  valid_answer : ∀ s question, valid s → valid (answer question s).2
  opened_of_open : ∀ s question h, valid s →
    Call.opened? ⟨question, (answer question s).1⟩ = some h →
      h ∉ opened s ∧ opened (answer question s).2 = insert h (opened s)
  opened_of_close : ∀ s h, valid s → (answer (.close h) s).1 = .ok () →
    opened (answer (.close h) s).2 = (opened s).erase h
  opened_of_failed_close : ∀ s h fault, valid s → (answer (.close h) s).1 = .error fault →
    opened (answer (.close h) s).2 = opened s
  opened_otherwise : ∀ s question, valid s →
    Call.opened? ⟨question, (answer question s).1⟩ = none → (∀ h, question ≠ .close h) →
      opened (answer question s).2 = opened s

namespace HandleKeeping

variable {σ : Type} {answer : Dialogue.Answering σ} (keeping : HandleKeeping answer)

/-- The filesystem and the ledger agree: the handles that are held are open,
and the handles that are open are those from before, those that are held and
those that could not be closed. -/
structure Agrees (start : σ) (r : Dialogue.Recorded σ) (past : List Call) : Prop where
  calls_eq : r.calls = past
  regular : handleProtocol.Regular past
  valid : keeping.valid r.state
  nodup : (held past).Nodup
  opened : ∀ h ∈ held past, h ∈ keeping.opened r.state
  card_eq : (keeping.opened r.state).card = (keeping.opened start).card + live past

/-- A filesystem that keeps count honours the discipline, and the ledger stays
in agreement with it. -/
theorem honoured (start : σ) :
    handleProtocol.Honoured (Dialogue.recording answer) (keeping.Agrees start) := by
  intro r past question hr hpermits
  set reply := (answer question r.state).1 with hreply
  set after := (answer question r.state).2 with hafter
  show handleProtocol.expects past question reply
    ∧ keeping.Agrees start ⟨after, ⟨question, reply⟩ :: r.calls⟩ (⟨question, reply⟩ :: past)
  have hvalid : keeping.valid after := keeping.valid_answer _ _ hr.valid
  have hcalls : (⟨question, reply⟩ : Call) :: r.calls = ⟨question, reply⟩ :: past := by
    rw [hr.calls_eq]
  have hcard := hr.card_eq
  rcases Call.trichotomy ⟨question, reply⟩ with
    ⟨h, ho, hc, hf⟩ | ⟨h, reply', heq⟩ | ⟨ho, hc, hf⟩
  · -- a handle is opened, and was not open before
    obtain ⟨hnew, hopened⟩ := keeping.opened_of_open _ _ h hr.valid ho
    have hfresh : h ∉ held past := fun hmem => hnew (hr.opened h hmem)
    have hexpects : handleProtocol.expects past question reply := by
      intro h' ho'
      rw [ho] at ho'
      injection ho' with ho'
      exact ho' ▸ hfresh
    refine ⟨hexpects, hcalls, ⟨hpermits, hexpects, hr.regular⟩, hvalid, ?_, ?_, ?_⟩
    · rw [held_cons_of_opened ho]
      exact List.nodup_cons.mpr ⟨hfresh, hr.nodup⟩
    · intro h' hmem
      rw [held_cons_of_opened ho] at hmem
      rw [hopened, Finset.mem_insert]
      rcases List.mem_cons.mp hmem with rfl | hmem
      · exact .inl rfl
      · exact .inr (hr.opened h' hmem)
    · unfold live at hcard ⊢
      rw [held_cons_of_opened ho, leaked_cons, hf, hopened,
        Finset.card_insert_of_notMem hnew, List.length_cons]
      simp only [Bool.false_eq_true, if_false]
      omega
  · -- a handle is passed to a close, which may fail
    obtain ⟨rfl, hreply'⟩ := Call.mk.inj heq
    have hmem : h ∈ held past := mem_held_of_close hpermits
    have hlength : 0 < (held past).length := List.length_pos_of_mem hmem
    have hexpects : handleProtocol.expects past (.close h) reply := by
      intro h' ho'
      cases ho'
    refine ⟨hexpects, hcalls, ⟨hpermits, hexpects, hr.regular⟩, hvalid, ?_, ?_, ?_⟩
    · rw [held_cons_close]
      exact hr.nodup.erase h
    · intro h' hmem'
      rw [held_cons_close, hr.nodup.mem_erase_iff] at hmem'
      have hopen := hr.opened h' hmem'.2
      cases hclosed : reply with
      | ok u =>
          rw [keeping.opened_of_close _ h hr.valid (hreply ▸ hclosed), Finset.mem_erase]
          exact ⟨hmem'.1, hopen⟩
      | error fault =>
          rw [keeping.opened_of_failed_close _ h fault hr.valid (hreply ▸ hclosed)]
          exact hopen
    · unfold live at hcard ⊢
      rw [held_cons_close, List.length_erase_of_mem hmem, leaked_cons]
      cases hclosed : reply with
      | ok u =>
          rw [keeping.opened_of_close _ h hr.valid (hreply ▸ hclosed),
            Finset.card_erase_of_mem (hr.opened h hmem)]
          simp only [Call.failsToClose, Bool.false_eq_true, if_false]
          omega
      | error fault =>
          rw [keeping.opened_of_failed_close _ h fault hr.valid (hreply ▸ hclosed)]
          simp only [Call.failsToClose, if_true]
          omega
  · -- the handles are left alone
    have hnoClose : ∀ h, question ≠ .close h := by
      intro h heq
      subst heq
      cases hc
    have hopened := keeping.opened_otherwise _ _ hr.valid ho hnoClose
    have hexpects : handleProtocol.expects past question reply := by
      intro h' ho'
      rw [ho] at ho'
      cases ho'
    refine ⟨hexpects, hcalls, ⟨hpermits, hexpects, hr.regular⟩, hvalid, ?_, ?_, ?_⟩
    · rw [held_cons_otherwise ho hc]
      exact hr.nodup
    · rw [held_cons_otherwise ho hc, hopened]
      exact hr.opened
    · unfold live at hcard ⊢
      rw [held_cons_otherwise ho hc, leaked_cons, hf, hopened]
      exact hcard

end HandleKeeping

end PathResolution
