/-
The handles of a cursor, whatever is done with it.

A cursor can be used in any order, after operations that failed as after those
that succeeded, and it is used so by someone who catches what an operation
raises and goes on. What is kept all the time is that the cursor holds exactly
the handles that were opened and not passed to a close since (`Holds`): every
operation follows the rules of ownership and keeps it
(`Cursor.perform_follows`). The only way around is to enter a cursor that holds
a handle, which forgets that handle.

On the other side there is a balance (`HandleKeeping.Balanced`): the handles
that are open are those from before, those that are held, and those that could
not be given back, each of them once. So a handle is lost only by a close that
fails, and none is passed to a close twice.
-/
import PathResolution.Proofs.Handles.Discipline
import PathResolution.Proofs.Handles.Moves

namespace PathResolution

-- =============================================================== balance

/-- The handles that could not be given back, the last one first. -/
def unreturned : List Call → List Handle :=
  List.filterMap fun call => if call.failsToClose then call.closed? else none

theorem unreturned_cons_of_not_fails {call : Call} (hf : call.failsToClose = false)
    (past : List Call) : unreturned (call :: past) = unreturned past := by
  unfold unreturned
  rw [List.filterMap_cons_none]
  rw [hf]
  rfl

@[simp]
theorem unreturned_cons_failed_close (h : Handle) (fault : Fault) (past : List Call) :
    unreturned (⟨.close h, .error fault⟩ :: past) = h :: unreturned past := rfl

namespace HandleKeeping

variable {σ : Type} {answer : Dialogue.Answering σ} (keeping : HandleKeeping answer)

/-- The handles that are open are those from before, those that are held, and
those that could not be given back, and no handle is counted twice. -/
structure Balanced (start : σ) (r : Dialogue.Recorded σ) (past : List Call) : Prop where
  calls_eq : r.calls = past
  regular : ownershipProtocol.Regular past
  valid : keeping.valid r.state
  opened_eq : (keeping.opened r.state).val
    = (keeping.opened start).val + (held past : Multiset Handle) + (unreturned past)

variable {keeping}

/-- What is held is open. -/
theorem Balanced.opened {start : σ} {r : Dialogue.Recorded σ} {past : List Call}
    (hr : keeping.Balanced start r past) {h : Handle} (hh : h ∈ held past) :
    h ∈ keeping.opened r.state := by
  rw [← Finset.mem_val, hr.opened_eq]
  simp [hh]

variable (keeping)

/-- A filesystem that keeps count stays in balance with one who asks only
through handles of its own. -/
theorem balanced (start : σ) :
    ownershipProtocol.Honoured (Dialogue.recording answer) (keeping.Balanced start) := by
  intro r past question hr hpermits
  set reply := (answer question r.state).1 with hreply
  set after := (answer question r.state).2 with hafter
  show ownershipProtocol.expects past question reply
    ∧ keeping.Balanced start ⟨after, ⟨question, reply⟩ :: r.calls⟩ (⟨question, reply⟩ :: past)
  have hvalid : keeping.valid after := keeping.valid_answer _ _ hr.valid
  have hexpects : ownershipProtocol.expects past question reply := by
    intro h ho hmem
    exact (keeping.opened_of_open _ _ h hr.valid ho).1 (hr.opened hmem)
  have hcalls : (⟨question, reply⟩ : Call) :: r.calls = ⟨question, reply⟩ :: past := by
    rw [hr.calls_eq]
  refine ⟨hexpects, hcalls, ⟨hpermits, hexpects, hr.regular⟩, hvalid, ?_⟩
  have hopened := hr.opened_eq
  rcases Call.trichotomy ⟨question, reply⟩ with
    ⟨h, ho, hc, hf⟩ | ⟨h, reply', heq⟩ | ⟨ho, hc, hf⟩
  · -- a handle is opened, and was not open before
    obtain ⟨hnew, hinsert⟩ := keeping.opened_of_open _ _ h hr.valid ho
    rw [hinsert, Finset.insert_val_of_notMem hnew, hopened, held_cons_of_opened ho,
      unreturned_cons_of_not_fails hf, ← Multiset.cons_coe, Multiset.add_cons, Multiset.cons_add]
  · -- a handle that is held is passed to a close, which may fail
    obtain ⟨rfl, -⟩ := Call.mk.inj heq
    have hmem : h ∈ (held past : Multiset Handle) := hpermits.2 h rfl
    rw [held_cons_close]
    cases hclosed : reply with
    | ok u =>
        rw [keeping.opened_of_close _ h hr.valid (hreply ▸ hclosed), Finset.erase_val, hopened,
          unreturned_cons_of_not_fails rfl,
          Multiset.erase_add_left_pos _ (Multiset.mem_add.mpr (.inr hmem)),
          Multiset.erase_add_right_pos _ hmem, Multiset.coe_erase]
    | error fault =>
        rw [keeping.opened_of_failed_close _ h fault hr.valid (hreply ▸ hclosed), hopened,
          unreturned_cons_failed_close, ← Multiset.coe_erase, ← Multiset.cons_coe,
          Multiset.add_cons, ← Multiset.cons_add, ← Multiset.add_cons, Multiset.cons_erase hmem]
  · -- the handles are left alone
    have hnoClose : ∀ h, question ≠ .close h := by
      intro h heq
      subst heq
      cases hc
    rw [keeping.opened_otherwise _ _ hr.valid ho hnoClose, hopened, held_cons_otherwise ho hc,
      unreturned_cons_of_not_fails hf]

end HandleKeeping

-- ============================================================ operations

namespace Cursor

/-- What can be done with a cursor. -/
inductive Operation where
  | enter
  | exit
  | move (move : Move)
  | readLink (name : Name)
  | close
  | handle
  | closed
  deriving DecidableEq, Repr

/-- What an operation that succeeds gives. -/
inductive Result where
  | nothing
  | target (target : Text)
  | handle (h : Handle)
  | truth (holds : Bool)
  deriving DecidableEq, Repr

/-- An operation that gives what it gives in the form of a result. -/
def giving {α : Type} (d : Dialogue (Answer α)) (form : α → Result) : Dialogue (Answer Result) :=
  d.bind fun a => .done (a.1.map form, a.2)

def perform (c : Cursor) : Operation → Dialogue (Answer Result)
  | .enter => giving c.enter fun _ => .nothing
  | .exit | .close => giving c.close fun _ => .nothing
  | .move move => giving (c.go move) fun _ => .nothing
  | .readLink name => giving (c.readLink name) .target
  | .handle => .done (c.handle.map .handle, c)
  | .closed => .done (.ok (.truth c.isClosed), c)

/-- What has to be done with a handle at hand. -/
def Operation.needsHandle : Operation → Bool
  | .move (.descend _) | .move .ascend | .readLink _ | .handle => true
  | .move .reset | .enter | .exit | .close | .closed => false

-- =========================================================== the rules

section

variable {c : Cursor} {past : List Call}

/-- A handover, if the ledger holds the handle that was opened beside the one of
the cursor. -/
theorem land_holds {entry : LogEntry} {reply : Except Fault Handle}
    (hopened : ∀ new, reply = .ok new →
      held past = new :: c.handle?.toList ∧ new ∉ c.handle?.toList)
    (hfailed : ∀ fault, reply = .error fault → Holds c past) :
    (c.land entry reply).Follows ownershipProtocol (fun a past => Holds a.2 past) past := by
  cases reply with
  | error fault => exact hfailed fault rfl
  | ok new =>
      obtain ⟨hheld, hnew⟩ := hopened new rfl
      obtain ⟨handle?⟩ := c
      cases handle? with
      | none => exact hheld
      | some old =>
          have hheld : held past = [new, old] := hheld
          refine ⟨⟨nofun, fun h hclose => ?_⟩, fun reply _ => ?_⟩
          · injection hclose with hclose
            rw [hheld, ← hclose]
            exact List.mem_cons_of_mem _ List.mem_cons_self
          · have hheld' := held_handover hheld hnew reply
            cases reply <;> exact hheld'

/-- An opening through the handle that is held, and the handover. -/
theorem withHandle_holds {entry : LogEntry} {name : Name} (hholds : Holds c past) :
    (c.withHandle fun base => .ask (.openRelative base name) (c.land entry)).Follows
      ownershipProtocol (fun a past => Holds a.2 past) past := by
  obtain ⟨handle?⟩ := c
  cases handle? with
  | none => exact hholds
  | some base =>
      have hheld : held past = [base] := hholds
      refine ⟨⟨fun base' hbase => ?_, nofun⟩, fun reply hreply => land_holds ?_ ?_⟩
      · injection hbase with hbase
        rw [hheld, hbase]
        exact List.mem_singleton_self _
      · rintro new rfl
        have hfresh : new ∉ held past := hreply new rfl
        rw [hheld] at hfresh
        exact ⟨congrArg (new :: ·) hheld, hfresh⟩
      · rintro fault rfl
        exact hheld

theorem go_holds (move : Move) (hholds : Holds c past) :
    (c.go move).Follows ownershipProtocol (fun a past => Holds a.2 past) past := by
  cases move with
  | descend name => exact withHandle_holds hholds
  | ascend => exact withHandle_holds hholds
  | reset =>
      refine ⟨⟨nofun, nofun⟩, fun reply hreply => land_holds ?_ ?_⟩
      · rintro new rfl
        have hfresh : new ∉ held past := hreply new rfl
        have hheld : held past = c.handle?.toList := hholds
        rw [hheld] at hfresh
        exact ⟨congrArg (new :: ·) hheld, hfresh⟩
      · rintro fault rfl
        exact hholds

theorem close_holds (hholds : Holds c past) :
    c.close.Follows ownershipProtocol (fun a past => Holds a.2 past) past := by
  obtain ⟨handle?⟩ := c
  cases handle? with
  | none => exact hholds
  | some h =>
      have hheld : held past = [h] := hholds
      refine ⟨⟨nofun, fun h' hclose => ?_⟩, fun reply _ => ?_⟩
      · injection hclose with hclose
        rw [hheld, hclose]
        exact List.mem_singleton_self _
      · show (held past).erase h = []
        rw [hheld, List.erase_cons_head]

theorem enter_holds (hclosed : c.isClosed = true) (hholds : Holds c past) :
    c.enter.Follows ownershipProtocol (fun a past => Holds a.2 past) past := by
  have hheld : held past = [] := by
    rw [show held past = c.handle?.toList from hholds, Option.isNone_iff_eq_none.mp hclosed]
    rfl
  refine ⟨⟨nofun, nofun⟩, fun reply _ => ?_⟩
  cases reply with
  | error fault => exact hholds
  | ok root => exact congrArg (root :: ·) hheld

theorem readLink_holds (name : Name) (hholds : Holds c past) :
    (c.readLink name).Follows ownershipProtocol (fun a past => Holds a.2 past) past := by
  obtain ⟨handle?⟩ := c
  cases handle? with
  | none => exact hholds
  | some base =>
      have hheld : held past = [base] := hholds
      refine ⟨⟨fun base' hbase => ?_, nofun⟩, fun reply _ => hheld⟩
      injection hbase with hbase
      rw [hheld, hbase]
      exact List.mem_singleton_self _

/-- Every operation keeps to the handle of the cursor, and leaves the cursor
with all that is held, whatever fails. -/
theorem perform_follows (op : Operation) (henter : op = .enter → c.isClosed = true)
    (hholds : Holds c past) :
    (c.perform op).Follows ownershipProtocol (fun a past => Holds a.2 past) past := by
  cases op with
  | enter => exact (enter_holds (henter rfl) hholds).bind fun _ _ h => h
  | exit => exact (close_holds hholds).bind fun _ _ h => h
  | move move => exact (go_holds move hholds).bind fun _ _ h => h
  | readLink name => exact (readLink_holds name hholds).bind fun _ _ h => h
  | close => exact (close_holds hholds).bind fun _ _ h => h
  | handle => exact hholds
  | closed => exact hholds

end

-- =================================================================== use

section

variable {σ : Type} (answer : Dialogue.Answering σ)

/-- Where a cursor and a filesystem can be after any operations on the cursor,
one after the other, whether they succeeded or not; it is entered only while it
holds no handle. -/
inductive InUse (s : σ) : Cursor → Dialogue.Recorded σ → Prop
  | new : InUse s .closed ⟨s, []⟩
  | next {c : Cursor} {r : Dialogue.Recorded σ} (op : Operation) : InUse s c r →
      (op = .enter → c.isClosed = true) →
      InUse s ((c.perform op).run (Dialogue.recording answer) r).value.2
        ((c.perform op).run (Dialogue.recording answer) r).state

variable {answer}

/-- In use, the cursor holds all that is held, and the handles are in balance. -/
theorem InUse.balanced (keeping : HandleKeeping answer) {s : σ} (hs : keeping.valid s)
    {c : Cursor} {r : Dialogue.Recorded σ} (h : InUse answer s c r) :
    Holds c r.calls ∧ keeping.Balanced s r r.calls := by
  induction h with
  | new =>
      refine ⟨rfl, rfl, trivial, hs, ?_⟩
      show (keeping.opened s).val = (keeping.opened s).val + ([] : List Handle) + ([] : List Handle)
      simp
  | @next c r op _ henter ih =>
      obtain ⟨past, hholds, hbalanced⟩ :=
        (perform_follows op henter ih.1).run (keeping.balanced s) ih.2
      obtain rfl := hbalanced.calls_eq
      exact ⟨hholds, hbalanced⟩

/-- A cursor that is closed already asks nothing when it is closed again. -/
theorem perform_close_of_closed {op : Operation} (hop : op = .close ∨ op = .exit) (s : σ) :
    (Cursor.closed.perform op).run answer s = ⟨(.ok .nothing, .closed), s, []⟩ := by
  obtain rfl | rfl := hop <;> rfl

theorem perform_close {op : Operation} (hop : op = .close ∨ op = .exit) (c : Cursor) (s : σ) :
    ((c.perform op).run answer s).value.2 = .closed := by
  have hclose : (c.perform op).run answer s
      = (giving c.close fun _ => .nothing).run answer s := by
    obtain rfl | rfl := hop <;> rfl
  rw [hclose, giving, Dialogue.run_bind]
  obtain ⟨handle?⟩ := c
  cases handle? <;> rfl

/-- Without a handle there is nothing to do it with, and nothing is asked. -/
theorem perform_of_closed {op : Operation} (hop : op.needsHandle = true) (s : σ) :
    (Cursor.closed.perform op).run answer s
      = ⟨(.error (.refused .cursorNotOpen), .closed), s, []⟩ := by
  cases op with
  | move move =>
      cases move with
      | descend name => rfl
      | ascend => rfl
      | reset => cases hop
  | readLink name => rfl
  | handle => rfl
  | _ => cases hop

end

end Cursor

-- ============================================================= ownership

section

variable {σ : Type} {answer : Dialogue.Answering σ}

/-- The handles of a cursor in any use, on any filesystem that keeps count of
its handles and may fail any call in any way. The handles that were opened and
are still open are the one that the cursor holds, and those that it could not
give back. What is passed to a close was opened before and not passed to one
since, so no handle is closed more often than it was opened. The cursor is
closed after a close even if that fails, and closing it again asks nothing.
Without a handle, what needs one is refused and asks nothing. -/
theorem cursor_owns_handles (keeping : HandleKeeping answer) (s : σ) (hs : keeping.valid s)
    (c : Cursor) (r : Dialogue.Recorded σ) (h : Cursor.InUse answer s c r) :
    (keeping.opened r.state).val
        = (keeping.opened s).val + (c.handle?.toList : Multiset Handle) + unreturned r.calls
      ∧ (∀ later earlier handle reply,
          r.calls = later ++ ⟨.close handle, reply⟩ :: earlier → handle ∈ held earlier)
      ∧ (∀ handle, r.calls.countP (fun call => call.closed? = some handle)
          ≤ r.calls.countP (fun call => call.opened? = some handle))
      ∧ (∀ op again : Cursor.Operation, op = .close ∨ op = .exit →
          again = .close ∨ again = .exit →
          let ended := (c.perform op).run (Dialogue.recording answer) r
          ended.value.2.isClosed = true
            ∧ (ended.value.2.perform again).run (Dialogue.recording answer) ended.state
              = ⟨(.ok .nothing, ended.value.2), ended.state, []⟩)
      ∧ (c.isClosed = true → ∀ op : Cursor.Operation, op.needsHandle = true →
          (c.perform op).run (Dialogue.recording answer) r
            = ⟨(.error (.refused .cursorNotOpen), c), r, []⟩) := by
  obtain ⟨hholds, hbalanced⟩ := h.balanced keeping hs
  have hholds : held r.calls = c.handle?.toList := hholds
  refine ⟨?_, ?_, ?_, ?_, ?_⟩
  · rw [hbalanced.opened_eq, hholds]
  · intro later earlier handle reply heq
    have hregular := hbalanced.regular
    rw [heq] at hregular
    exact hregular.earlier.1.2 handle rfl
  · intro handle
    rw [countP_opened_eq hbalanced.regular handle]
    exact Nat.le_add_right _ _
  · intro op again hop hagain ended
    have hclosed : ended.value.2 = .closed := Cursor.perform_close hop c r
    rw [hclosed]
    exact ⟨rfl, Cursor.perform_close_of_closed hagain ended.state⟩
  · intro hclosed op hop
    obtain ⟨handle?⟩ := c
    obtain rfl : handle? = none := Option.isNone_iff_eq_none.mp hclosed
    exact Cursor.perform_of_closed hop r

end

/-- Every close fails. The cursor goes on all the same: it moves, is closed and
opened again, and in the end two handles are lost. -/
theorem cursor_owns_handles_failing_closes :
    let s : Injected Store := ⟨.sample, [⟨.close, none, 0, .system (some Errno.inputOutput) none⟩]⟩
    ∃ c r, Cursor.InUse (injecting Store.answer) s c r
      ∧ c.handle? = some 5 ∧ unreturned r.calls = [4, 3]
      ∧ r.state.state.handles.handles.val = {5, 4, 3} := by
  intro s
  obtain ⟨c, r, hused, hcursor, hlost⟩ : ∃ c r, Cursor.InUse (injecting Store.answer) s c r
      ∧ c.handle? = some 5 ∧ unreturned r.calls = [4, 3] := by
    have hentered : Cursor.InUse (injecting Store.answer) s _ _ :=
      .next .enter .new fun _ => rfl
    refine ⟨_, _, ((hentered.next (.move (.descend (text "d"))) nofun).next .close nofun).next
      (.move .reset) nofun, ?_, ?_⟩
    · decide +kernel
    · decide +kernel
  obtain ⟨hopened, -⟩ := cursor_owns_handles Store.handleKeeping.injecting s
    Store.sample_reachable.wellFormed.handles c r hused
  rw [hcursor, hlost] at hopened
  exact ⟨c, r, hused, hcursor, hlost, hopened⟩

end PathResolution
