/-
What is left of a move that fails.

A move puts two questions: it opens the directory that it goes to, and gives the
old handle back once the cursor holds the new one. So it can fail in two ways
(`HandleKeeping.FailedMove`). If the directory cannot be opened, nothing has
happened yet, and the cursor is where it was. If the old handle cannot be given
back, the move has happened already: the cursor is on the new handle, and the
old one stays open and nobody holds it any more. So a failed move leaves the
cursor where it was in the first case, and in the second it does not.
-/
import PathResolution.Cursor
import PathResolution.Proofs.Reachable

namespace PathResolution

-- ================================================================= moves

namespace Cursor

/-- A way to move a cursor. -/
inductive Move where
  | descend (name : Name)
  | ascend
  | reset
  deriving DecidableEq, Repr

def go (c : Cursor) : Move → Dialogue (Answer Unit)
  | .descend name => c.descend name
  | .ascend => c.ascend
  | .reset => c.reset

namespace Move

variable {σ : Type} {answer : Dialogue.Answering σ}

/-- What is told of a move that succeeds. -/
def entry : Move → LogEntry
  | .descend name => .movedInto name
  | .ascend => .movedUp
  | .reset => .movedToRoot

/-- What a move opens first, from a cursor that holds `h`. -/
def opening (answer : Dialogue.Answering σ) (h : Handle) : Move → σ → Except Fault Handle × σ
  | .descend name => answer (.openRelative h name)
  | .ascend => answer (.openRelative h dotDot)
  | .reset => answer .openRoot

/-- A move of an open cursor opens, and then hands over. -/
theorem run_eq (h : Handle) (move : Move) (s : σ) :
    ((⟨some h⟩ : Cursor).go move).run answer s
      = ((⟨some h⟩ : Cursor).land move.entry (move.opening answer h s).1).run answer
          (move.opening answer h s).2 := by
  cases move <;> rfl

end Move

end Cursor

theorem Call.opened?_openRelative (base : Handle) (name : Name) (reply : Except Fault Handle) :
    opened? ⟨.openRelative base name, reply⟩ = reply.toOption := by
  cases reply <;> rfl

theorem Call.opened?_openRoot (reply : Except Fault Handle) :
    opened? ⟨.openRoot, reply⟩ = reply.toOption := by
  cases reply <;> rfl

-- ================================================================== ends

section

variable {σ : Type} {answer : Dialogue.Answering σ} (keeping : HandleKeeping answer)

/-- What a move from a cursor that holds `h` can leave when it fails: the cursor
where it was and the handles as they were, or the cursor on a new handle with
the old one still open, after a close that failed. -/
inductive HandleKeeping.FailedMove (s : σ) (h : Handle) (fault : Fault) :
    Cursor → Dialogue.Recorded σ → Prop
  | stayed {s' : σ} (opening : Call) : opening.failsToClose = false →
      keeping.opened s' = keeping.opened s → FailedMove s h fault ⟨some h⟩ ⟨s', [opening]⟩
  | moved {s' : σ} (new : Handle) (opening : Call) : opening.failsToClose = false →
      new ∉ keeping.opened s → keeping.opened s' = insert new (keeping.opened s) →
      FailedMove s h fault ⟨some new⟩ ⟨s', [⟨.close h, .error fault⟩, opening]⟩

/-- What a move opens is one call that is no close. It opens a handle that was
not open, or changes nothing. -/
theorem HandleKeeping.opening {s : σ} (hs : keeping.valid s) (h : Handle) (move : Cursor.Move) :
    ∃ call : Call, call.failsToClose = false
      ∧ move.opening (Dialogue.recording answer) h ⟨s, []⟩
        = ((move.opening answer h s).1, ⟨(move.opening answer h s).2, [call]⟩)
      ∧ keeping.valid (move.opening answer h s).2
      ∧ (∀ new, (move.opening answer h s).1 = .ok new → new ∉ keeping.opened s
          ∧ keeping.opened (move.opening answer h s).2 = insert new (keeping.opened s))
      ∧ ∀ fault, (move.opening answer h s).1 = .error fault →
          keeping.opened (move.opening answer h s).2 = keeping.opened s := by
  have hrelative : ∀ name, (∀ new, (answer (.openRelative h name) s).1 = .ok new →
        new ∉ keeping.opened s
          ∧ keeping.opened (answer (.openRelative h name) s).2 = insert new (keeping.opened s))
      ∧ ∀ fault, (answer (.openRelative h name) s).1 = .error fault →
          keeping.opened (answer (.openRelative h name) s).2 = keeping.opened s := by
    intro name
    have hopened := Call.opened?_openRelative h name (answer (.openRelative h name) s).1
    refine ⟨fun new hnew => keeping.opened_of_open s _ new hs ?_, fun fault hfault =>
      keeping.opened_otherwise s _ hs ?_ nofun⟩
    · rw [hopened, hnew]
      rfl
    · rw [hopened, hfault]
      rfl
  cases move with
  | descend name => exact ⟨_, rfl, rfl, keeping.valid_answer s _ hs, hrelative name⟩
  | ascend => exact ⟨_, rfl, rfl, keeping.valid_answer s _ hs, hrelative dotDot⟩
  | reset =>
      have hopened := Call.opened?_openRoot (answer .openRoot s).1
      refine ⟨_, rfl, rfl, keeping.valid_answer s _ hs, fun new hnew =>
        keeping.opened_of_open s .openRoot new hs ?_, fun fault hfault =>
        keeping.opened_otherwise s .openRoot hs ?_ nofun⟩
      · rw [hopened]
        exact congrArg Except.toOption hnew
      · rw [hopened]
        exact congrArg Except.toOption hfault

/-- A move that fails leaves nothing else. -/
theorem HandleKeeping.failedMove {s : σ} (hs : keeping.valid s) (h : Handle)
    (move : Cursor.Move) {fault : Fault} :
    let ended := ((⟨some h⟩ : Cursor).go move).run (Dialogue.recording answer) ⟨s, []⟩
    ended.value.1 = .error fault → keeping.FailedMove s h fault ended.value.2 ended.state := by
  obtain ⟨call, hcall, hopening, hvalid, hnew, hold⟩ := keeping.opening hs h move
  rw [Cursor.Move.run_eq, hopening]
  cases hreply : (move.opening answer h s).1 with
  | error fault' =>
      intro ended _
      exact .stayed call hcall (hold fault' hreply)
  | ok new =>
      obtain ⟨hfresh, hopened⟩ := hnew new hreply
      generalize (move.opening answer h s).2 = mid at hvalid hopened
      -- the close comes second, and the cursor is on the new handle already
      have hland : ∀ reply after, answer (.close h) mid = (reply, after) →
          let landed := ((⟨some h⟩ : Cursor).land move.entry (.ok new)).run
            (Dialogue.recording answer) ⟨mid, [call]⟩
          landed.value = (reply, ⟨some new⟩)
            ∧ landed.state = ⟨after, [⟨.close h, reply⟩, call]⟩ := by
        intro reply after hclose
        simp only [Cursor.land, Cursor.replace, Dialogue.bind, Dialogue.run_ask,
          Dialogue.recording, hclose]
        cases reply <;> exact ⟨rfl, rfl⟩
      obtain ⟨hvalue, hstate⟩ := hland _ _ rfl
      intro ended hfails
      rw [hvalue] at hfails ⊢
      rw [hstate]
      have hclose : (answer (.close h) mid).1 = .error fault := hfails
      rw [hclose]
      refine .moved new call hcall hfresh ?_
      rw [keeping.opened_of_failed_close mid h fault hvalid hclose, hopened]

/-- A move that fails leaves the cursor where it was, and the handles as they
were, unless it fails to give the old handle back. Then the cursor is on the new
one, and both are open. -/
theorem failed_move_stays_unless_close_fails (s : σ) (hs : keeping.valid s) (h : Handle)
    (hopen : h ∈ keeping.opened s) (move : Cursor.Move) (fault : Fault) :
    let ended := ((⟨some h⟩ : Cursor).go move).run (Dialogue.recording answer) ⟨s, []⟩
    ended.value.1 = .error fault →
      (leaked ended.state.calls = 0 →
        ended.value.2 = ⟨some h⟩ ∧ h ∈ keeping.opened ended.state.state
          ∧ keeping.opened ended.state.state = keeping.opened s)
      ∧ (leaked ended.state.calls ≠ 0 →
        ∃ new, ended.value.2 = ⟨some new⟩ ∧ new ∉ keeping.opened s
          ∧ h ∈ keeping.opened ended.state.state
          ∧ keeping.opened ended.state.state = insert new (keeping.opened s)) := by
  intro ended hfails
  have hleft : keeping.FailedMove s h fault ended.value.2 ended.state :=
    keeping.failedMove hs h move hfails
  generalize ended.value.2 = cursor, ended.state = state at hleft
  cases hleft with
  | stayed opening hcall hopened =>
      have hleaked : leaked [opening] = 0 := by
        rw [leaked_cons, hcall]
        rfl
      exact ⟨fun _ => ⟨rfl, hopened ▸ hopen, hopened⟩, fun hne => absurd hleaked hne⟩
  | moved new opening hcall hfresh hopened =>
      have hleaked : leaked [⟨.close h, .error fault⟩, opening] = 1 := by
        rw [leaked_cons, leaked_cons, hcall]
        rfl
      refine ⟨fun hnone => ?_, fun _ => ⟨new, rfl, hfresh, ?_, hopened⟩⟩
      · rw [hleaked] at hnone
        cases hnone
      · rw [hopened]
        exact Finset.mem_insert_of_mem hopen

end

/-- The root of a store is open, and from now on every close fails. -/
def Store.openRootFailingCloses : Injected Store :=
  ⟨(Store.answer .openRoot .sample).2,
    [⟨.close, none, 0, .system (some Errno.inputOutput) none⟩]⟩

/-- A directory that is missing cannot be opened, and nothing is closed. -/
theorem failed_move_stays_at_missing_name :
    let ended := ((⟨some 3⟩ : Cursor).go (.descend (text "x"))).run
      (Dialogue.recording (injecting Store.answer)) ⟨Store.openRootFailingCloses, []⟩
    ended.value.1 = .error (Tree.faultAt Errno.noEntry (text "x"))
      ∧ ended.value.2 = ⟨some 3⟩ ∧ ended.state.state.state.handles.handles = {3} := by
  intro ended
  have hvalid : Store.handleKeeping.injecting.valid Store.openRootFailingCloses :=
    (Store.Reachable.answer .openRoot Store.sample_reachable).wellFormed.handles
  have hfails : ended.value.1 = .error (Tree.faultAt Errno.noEntry (text "x")) := rfl
  have hleaked : leaked ended.state.calls = 0 := rfl
  obtain ⟨hstays, -⟩ := failed_move_stays_unless_close_fails Store.handleKeeping.injecting
    Store.openRootFailingCloses hvalid 3 (by decide) (.descend (text "x")) _ hfails
  obtain ⟨hcursor, -, hopened⟩ := hstays hleaked
  exact ⟨hfails, hcursor, hopened⟩

/-- The move fails, and the cursor is on a new handle that is open. -/
theorem failed_move_leaves_its_place :
    let ended := ((⟨some 3⟩ : Cursor).go (.descend (text "d"))).run
      (Dialogue.recording (injecting Store.answer)) ⟨Store.openRootFailingCloses, []⟩
    3 ∈ Store.openRootFailingCloses.state.handles.handles
      ∧ 4 ∉ Store.openRootFailingCloses.state.handles.handles
      ∧ ended.value.1 = .error (.system (some Errno.inputOutput) none)
      ∧ ended.value.2 ≠ ⟨some 3⟩ ∧ 4 ∈ ended.state.state.state.handles.handles := by
  decide

end PathResolution
