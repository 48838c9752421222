/-
The handles of one resolution.

A resolution owns the handles that it opens, and nothing may go wrong with
them whatever the filesystem answers: the opening of the root, the opening of
the next directory, the closing of the last one and the closing at the end can
each fail at any call, and the handover happens in the middle of a move. The
invariant is that between calls the ledger holds exactly what the cursor holds
(`Holds`). In a move there is one moment at which it holds one handle more,
and the next call passes the older one to a close; whether that close succeeds
or not, the cursor is on the new handle and the ledger holds the new handle.

A failed close ends the run, and then nothing is opened any more. So even the
handles that could not be given back never add up: at most two handles of a
resolution are open at any moment (`live_le_two`).

The budget bounds the calls: taking a name reads at most one link and opens at
most one directory, and the root comes on top.
-/
import PathResolution.Proofs.Reachable
import PathResolution.Proofs.Resolution.Spelling

namespace PathResolution

-- ============================================================== counting

def readCount (past : List Call) : Nat :=
  past.countP fun call => call.question.kind = .readLink

def openCount (past : List Call) : Nat := past.countP fun call => call.opened?.isSome

def askCount (past : List Call) : Nat :=
  past.countP fun call => call.question.kind = .workingDirectory

/-- What is left of a budget of `total` names: so many links may still be read,
and so many handles may still be opened. -/
structure Spent (total asked readsLeft opensLeft : Nat) (past : List Call) : Prop where
  reads_le : readCount past + readsLeft ≤ total
  opens_le : openCount past + opensLeft ≤ total + 1
  asks_eq : askCount past = asked

namespace Spent

variable {total asked readsLeft opensLeft : Nat} {past : List Call}

/-- Reading a link takes one off the links. -/
theorem read {base : Handle} {name : Name} {reply : Except Fault Text}
    (h : Spent total asked (readsLeft + 1) opensLeft past) :
    Spent total asked readsLeft opensLeft (⟨.readLink base name, reply⟩ :: past) := by
  obtain ⟨hreads, hopens, hasks⟩ := h
  refine ⟨?_, hopens, hasks⟩
  have hcons : readCount (⟨.readLink base name, reply⟩ :: past) = readCount past + 1 :=
    List.countP_cons_of_pos rfl
  omega

/-- Opening a handle, or trying to, takes one off the handles. -/
theorem opened {question : Primitive} {reply : question.Reply}
    (hq : question.kind = .openRoot ∨ question.kind = .openRelative)
    (h : Spent total asked readsLeft (opensLeft + 1) past) :
    Spent total asked readsLeft opensLeft (⟨question, reply⟩ :: past) := by
  obtain ⟨hreads, hopens, hasks⟩ := h
  have hopened : openCount (⟨question, reply⟩ :: past) ≤ openCount past + 1 := by
    unfold openCount
    rw [List.countP_cons]
    split <;> omega
  have hkind : question.kind ≠ .readLink ∧ question.kind ≠ .workingDirectory := by
    rcases hq with hq | hq <;> rw [hq] <;> exact ⟨nofun, nofun⟩
  refine ⟨?_, by omega, ?_⟩
  · unfold readCount
    rw [List.countP_cons_of_neg (by simpa using hkind.1)]
    exact hreads
  · unfold askCount
    rw [List.countP_cons_of_neg (by simpa using hkind.2)]
    exact hasks

theorem closed {h : Handle} {reply : Except Fault Unit}
    (hs : Spent total asked readsLeft opensLeft past) :
    Spent total asked readsLeft opensLeft (⟨.close h, reply⟩ :: past) :=
  ⟨hs.reads_le, hs.opens_le, hs.asks_eq⟩

/-- What may still be spent need not be. -/
theorem weaken {reads opens : Nat} (hr : reads ≤ readsLeft) (ho : opens ≤ opensLeft)
    (h : Spent total asked readsLeft opensLeft past) : Spent total asked reads opens past := by
  obtain ⟨hreads, hopens, hasks⟩ := h
  exact ⟨by omega, by omega, hasks⟩

end Spent

-- ================================================================ stages

/-- The ledger holds what the cursor holds. -/
def Holds (c : Cursor) (past : List Call) : Prop := held past = c.handle?.toList

/-- What the ledger knows of a resolution that may take `total` names. -/
def handleStages (total asked : Nat) : Cursor.Stages (List Call) where
  head budget c past := Holds c past ∧ leaked past = 0 ∧ Spent total asked budget budget past
  read budget c past :=
    Holds c past ∧ leaked past = 0 ∧ Spent total asked budget (budget + 1) past
  ended c past := Holds c past ∧ Spent total asked 0 0 past
  left past := held past = [] ∧ Spent total asked 0 0 past

section

variable {total asked budget : Nat} {c : Cursor} {past : List Call}

/-- A move from a cursor to the handle that was just opened, if one was. The
handover is in the middle: the new handle is owned before the old one is
closed. -/
theorem land_follows {entry : LogEntry} {reply : Except Fault Handle}
    (hleaked : leaked past = 0) (hspent : Spent total asked budget budget past)
    (hopened : ∀ new, reply = .ok new →
      held past = new :: c.handle?.toList ∧ new ∉ c.handle?.toList)
    (hfailed : ∀ fault, reply = .error fault → Holds c past) :
    (c.land entry reply).Follows handleProtocol
      (fun a past => (handleStages total asked).ended a.2 past
        ∧ (a.1 = .ok () → (handleStages total asked).head budget a.2 past)) past := by
  have hspent₀ : Spent total asked 0 0 past := hspent.weaken (Nat.zero_le _) (Nat.zero_le _)
  cases reply with
  | error fault => exact ⟨⟨hfailed fault rfl, hspent₀⟩, nofun⟩
  | ok new =>
      obtain ⟨hheld, hnew⟩ := hopened new rfl
      obtain ⟨handle?⟩ := c
      cases handle? with
      | none => exact ⟨⟨hheld, hspent₀⟩, fun _ => ⟨hheld, hleaked, hspent⟩⟩
      | some old =>
          have hheld : held past = [new, old] := hheld
          refine ⟨?_, fun reply _ => ?_⟩
          · show (held past).getLast? = some old
            rw [hheld]
            rfl
          · have hheld' := held_handover hheld hnew reply
            cases reply with
            | ok _ =>
                have hleaked' : leaked (⟨.close old, .ok ()⟩ :: past) = 0 := by
                  rw [leaked_cons, hleaked]
                  rfl
                exact ⟨⟨hheld', hspent₀.closed⟩, fun _ => ⟨hheld', hleaked', hspent.closed⟩⟩
            | error fault => exact ⟨⟨hheld', hspent₀.closed⟩, nofun⟩

/-- A move that opens its new handle through the one that is held. -/
theorem move_follows {entry : LogEntry} {name : Name}
    (h : (handleStages total asked).read budget c past) :
    (c.withHandle fun base => .ask (.openRelative base name) (c.land entry)).Follows
      handleProtocol
      (fun a past => (handleStages total asked).ended a.2 past
        ∧ (a.1 = .ok () → (handleStages total asked).head budget a.2 past)) past := by
  obtain ⟨hheld, hleaked, hspent⟩ := h
  have hspent₀ : Spent total asked 0 0 past := hspent.weaken (Nat.zero_le _) (Nat.zero_le _)
  obtain ⟨handle?⟩ := c
  cases handle? with
  | none => exact ⟨⟨hheld, hspent₀⟩, nofun⟩
  | some base =>
      have hheld : held past = [base] := hheld
      refine ⟨⟨hheld, hleaked⟩, fun reply hreply => ?_⟩
      have hleaked' : leaked (⟨.openRelative base name, reply⟩ :: past) = 0 := by
        rw [leaked_cons, hleaked]
        cases reply <;> rfl
      refine land_follows hleaked' (hspent.opened (.inr rfl)) ?_ ?_
      · intro new hnew
        subst hnew
        refine ⟨?_, ?_⟩
        · rw [show held (handleProtocol.note past (.openRelative base name) (.ok new))
            = new :: held past from rfl, hheld]
          rfl
        · have hfresh : new ∉ held past := hreply new rfl
          rw [hheld] at hfresh
          exact hfresh
      · intro fault hfault
        subst hfault
        exact hheld

theorem close_follows (h : (handleStages total asked).ended c past) :
    c.close.Follows handleProtocol (fun _ => (handleStages total asked).left) past := by
  obtain ⟨hheld, hspent⟩ := h
  obtain ⟨handle?⟩ := c
  cases handle? with
  | none => exact ⟨hheld, hspent⟩
  | some base =>
      have hheld : held past = [base] := hheld
      refine ⟨?_, fun reply _ => ⟨?_, hspent.closed⟩⟩
      · show (held past).getLast? = some base
        rw [hheld]
        rfl
      · show (held past).erase base = []
        rw [hheld, List.erase_cons_head]

end

/-- The moves of a cursor keep the ledger in step, whatever fails. -/
theorem handleStages_kept (total asked : Nat) :
    (handleStages total asked).Kept handleProtocol where
  read_of_head := by
    intro budget c past h
    obtain ⟨hheld, hleaked, hspent⟩ := h
    exact ⟨hheld, hleaked, hspent.weaken (Nat.le_succ _) (Nat.le_refl _)⟩
  head_of_read := by
    intro budget c past h
    obtain ⟨hheld, hleaked, hspent⟩ := h
    exact ⟨hheld, hleaked, hspent.weaken (Nat.le_refl _) (Nat.le_succ _)⟩
  ended_of_head := by
    intro budget c past h
    obtain ⟨hheld, -, hspent⟩ := h
    exact ⟨hheld, hspent.weaken (Nat.zero_le _) (Nat.zero_le _)⟩
  readLink := by
    intro budget ⟨handle?⟩ past name h
    obtain ⟨hheld, hleaked, hspent⟩ := h
    cases handle? with
    | none => exact ⟨hheld, hleaked, hspent.weaken (Nat.le_succ _) (Nat.le_refl _)⟩
    | some base =>
        refine ⟨⟨hheld, hleaked⟩, fun reply _ => ⟨hheld, ?_, hspent.read⟩⟩
        rw [show handleProtocol.note past (.readLink base name) reply
          = ⟨.readLink base name, reply⟩ :: past from rfl, leaked_cons, hleaked]
        rfl
  descend _ _ _ _ h := move_follows h
  ascend _ _ _ h := move_follows h
  reset := by
    intro budget c past h
    obtain ⟨hheld, hleaked, hspent⟩ := h
    have hlength : (held past).length ≤ 1 := by
      rw [hheld]
      cases c.handle? <;> simp
    refine ⟨⟨hlength, hleaked⟩, fun reply hreply => ?_⟩
    have hleaked' : leaked (⟨.openRoot, reply⟩ :: past) = 0 := by
      rw [leaked_cons, hleaked]
      cases reply <;> rfl
    refine land_follows hleaked' (hspent.opened (.inl rfl)) ?_ ?_
    · intro new hnew
      subst hnew
      have hfresh : new ∉ held past := hreply new rfl
      rw [hheld] at hfresh
      refine ⟨?_, hfresh⟩
      rw [show held (handleProtocol.note past .openRoot (.ok new)) = new :: held past from rfl,
        hheld]
    · intro fault hfault
      subst hfault
      exact hheld
  close _ _ h := close_follows h

-- ============================================================ whole paths

def PathArgument.asText : PathArgument → Text
  | .text path => path
  | .bytes path => ofUtf8 path

/-- How often the working directory is asked for: once for a relative path,
never for an absolute one. -/
def askedFor (path : Text) : Nat := if isAbsolute path then 0 else 1

theorem enter_follows {total asked : Nat} {past : List Call} (hheld : held past = [])
    (hleaked : leaked past = 0) (hspent : Spent total asked total (total + 1) past) :
    Cursor.closed.enter.Follows handleProtocol
      (fun a past => (a.1 = .ok () → (handleStages total asked).head total a.2 past)
        ∧ (∀ fault, a.1 = .error fault → (handleStages total asked).left past)) past := by
  have hlength : (held past).length ≤ 1 := by
    rw [hheld]
    exact Nat.zero_le _
  refine ⟨⟨hlength, hleaked⟩, fun reply _ => ?_⟩
  have hspent' : Spent total asked total total (⟨.openRoot, reply⟩ :: past) :=
    hspent.opened (.inl rfl)
  cases reply with
  | error fault =>
      exact ⟨nofun, fun _ _ => ⟨hheld, hspent'.weaken (Nat.zero_le _) (Nat.zero_le _)⟩⟩
  | ok root =>
      refine ⟨fun _ => ⟨?_, ?_, hspent'⟩, nofun⟩
      · show root :: held past = [root]
        rw [hheld]
      · rw [show handleProtocol.note past .openRoot (.ok root)
          = ⟨.openRoot, .ok root⟩ :: past from rfl, leaked_cons, hleaked]
        rfl

theorem canonicalPathShown_keeps_ledger (shown : Text) (limits : Limits) (mode : ExistenceMode)
    (path : Text) :
    (canonicalPathShown shown limits mode path).Follows handleProtocol
      (fun _ past => (handleStages limits.loopBudget (askedFor path)).left past) [] := by
  -- before the root is opened, only the working directory may have been asked for
  have hstart : (startingDirectory path).Follows handleProtocol
      (fun a past =>
        (∀ directory, a = .ok directory → held past = [] ∧ leaked past = 0
          ∧ Spent limits.loopBudget (askedFor path) limits.loopBudget
              (limits.loopBudget + 1) past)
        ∧ (∀ failure, a = .error failure →
            (handleStages limits.loopBudget (askedFor path)).left past)) [] := by
    unfold startingDirectory askedFor
    split
    · refine ⟨fun _ _ => ⟨rfl, rfl, ?_, ?_, rfl⟩, nofun⟩
      · exact Nat.le_of_eq (Nat.zero_add _)
      · exact Nat.le_of_eq (Nat.zero_add _)
    · refine ⟨rfl, fun reply _ => ?_⟩
      cases reply with
      | ok directory =>
          refine ⟨fun _ _ => ⟨rfl, rfl, ?_, ?_, rfl⟩, nofun⟩
          · exact Nat.le_of_eq (Nat.zero_add _)
          · exact Nat.le_of_eq (Nat.zero_add _)
      | error fault =>
          exact ⟨nofun, fun _ _ => ⟨rfl, Nat.zero_le _, Nat.zero_le _, rfl⟩⟩
  have h := canonicalPathShown_follows shown limits mode path (handleStages_kept _ _) hstart
    fun past hpast => enter_follows hpast.1 hpast.2.1 hpast.2.2
  exact h.mono fun _ _ hleft => hleft.2

/-- A resolution gives back all its handles, within its budget. -/
theorem canonicalArgument_keeps_ledger (shown : Text → Text) (limits : Limits)
    (mode : ExistenceMode) (argument : PathArgument) :
    (canonicalArgument shown limits mode argument).Follows handleProtocol
      (fun _ past => (handleStages limits.loopBudget (askedFor argument.asText)).left past)
      [] := by
  cases argument with
  | text path => exact (canonicalPathShown_keeps_ledger _ limits mode path).bind fun _ _ h => h
  | bytes path =>
      exact (canonicalPathShown_keeps_ledger _ limits mode (ofUtf8 path)).bind fun _ _ h => h

/-- The same for arguments of any kind: what is no path, or comes with no mode,
asks nothing. -/
theorem resolve_keeps_ledger (limits : Limits) (env : Environment) (path exact : Value) :
    (resolve limits env path exact).Follows handleProtocol
      (fun _ past => ∃ asked, (handleStages limits.loopBudget asked).left past
        ∧ ∀ argument mode, path.path? = .ok argument → exact.mode? env = .ok mode →
          asked = askedFor argument.asText) [] := by
  have hnothing : (handleStages limits.loopBudget 0).left [] :=
    ⟨rfl, Nat.zero_le _, Nat.zero_le _, rfl⟩
  unfold resolve
  cases path.path? with
  | error e =>
      refine ⟨0, hnothing, ?_⟩
      intro argument mode h
      cases h
  | ok argument =>
      cases exact.mode? env with
      | error e =>
          refine ⟨0, hnothing, ?_⟩
          intro argument mode _ h
          cases h
      | ok mode =>
          refine (canonicalArgument_keeps_ledger path.shownPath limits mode argument).mono ?_
          intro _ past hleft
          refine ⟨_, hleft, ?_⟩
          intro argument' mode' h _
          injection h with h
          rw [h]

/-- What is to be said of the handles along a history, the latest call
first. -/
structure HandleDiscipline (history : List Call) : Prop where
  /-- Every handle that is passed to a close was opened before and not passed to
  one since. -/
  closed_once : ∀ later earlier h reply,
    history = later ++ ⟨.close h, reply⟩ :: earlier → h ∈ held earlier
  /-- Every handle that was opened is passed to a close. -/
  all_closed : held history = []
  /-- A handle is passed to a close as often as it was opened. -/
  closed_as_opened : ∀ h,
    history.countP (fun call => call.opened? = some h)
      = history.countP (fun call => call.closed? = some h)
  /-- Links are read and directories are opened only through a handle that was
  opened before and not passed to a close since. -/
  base_held : ∀ later call earlier base,
    history = later ++ call :: earlier → call.question.base? = some base → base ∈ held earlier
  /-- At most two handles are open at any moment. -/
  live_le_two : ∀ later earlier, history = later ++ earlier → live earlier ≤ 2
  /-- Two handles are open only in the middle of a move: what comes next is a
  close. -/
  live_le_one : ∀ later call earlier,
    history = later ++ call :: earlier → call.closed? = none → live earlier ≤ 1

/-- A history that is regular, and at the end of which nothing is held, has the
discipline. -/
theorem HandleDiscipline.of_regular {history : List Call} (h : handleProtocol.Regular history)
    (hheld : held history = []) : HandleDiscipline history where
  closed_once := by
    intro later earlier handle reply heq
    subst heq
    exact mem_held_of_close h.earlier.1
  all_closed := hheld
  closed_as_opened handle := by
    rw [countP_opened_eq (ownership_of_handleProtocol h) handle, hheld, List.count_nil,
      Nat.add_zero]
  base_held := by
    intro later call earlier base heq hbase
    subst heq
    exact mem_held_of_base h.earlier.1 hbase
  live_le_two := by
    intro later earlier heq
    subst heq
    exact PathResolution.live_le_two h.earlier
  live_le_one := by
    intro later call earlier heq hc
    subst heq
    exact PathResolution.live_le_one h.earlier.1 hc

/-- The working directory can only have been asked for first. -/
theorem asked_first {history : List Call} (h : handleProtocol.Regular history)
    (hcount : askCount history = 1) :
    ∃ later reply, history = later ++ [⟨.workingDirectory, reply⟩] ∧ askCount later = 0 := by
  have hpos : 0 < askCount history := by rw [hcount]; exact Nat.one_pos
  obtain ⟨call, hmem, hkind⟩ := List.countP_pos_iff.mp hpos
  obtain ⟨later, earlier, rfl⟩ := List.append_of_mem hmem
  obtain ⟨question, reply⟩ := call
  cases question with
  | workingDirectory =>
      have hearlier : earlier = [] := h.earlier.1
      subst hearlier
      refine ⟨later, reply, rfl, ?_⟩
      have hsum : askCount (later ++ [⟨.workingDirectory, reply⟩]) = askCount later + 1 := by
        unfold askCount
        rw [List.countP_append]
        rfl
      omega
  | openRoot => simp [Primitive.kind] at hkind
  | openRelative base name => simp [Primitive.kind] at hkind
  | readLink base name => simp [Primitive.kind] at hkind
  | close handle => simp [Primitive.kind] at hkind

section

variable {σ : Type} {answer : Dialogue.Answering σ}

/-- The handles of one resolution, against any filesystem that keeps count of
its handles and may fail any call in any way. The calls of the run have the
discipline; the handles that are open afterwards are one more for each close
that failed; the budget bounds the links that are read and the handles that are
opened; and the working directory is asked for once, before anything else, if
the path is relative, and otherwise not at all. -/
theorem resolve_keeps_handles (keeping : HandleKeeping answer) (s : σ) (hs : keeping.valid s)
    (limits : Limits) (env : Environment) (path exact : Value) :
    let after := ((resolve limits env path exact).run (Dialogue.recording answer) ⟨s, []⟩).state
    HandleDiscipline after.calls
      ∧ (keeping.opened after.state).card = (keeping.opened s).card + leaked after.calls
      ∧ readCount after.calls ≤ limits.loopBudget
      ∧ openCount after.calls ≤ limits.loopBudget + 1
      ∧ ∀ argument mode, path.path? = .ok argument → exact.mode? env = .ok mode →
          if isAbsolute argument.asText then askCount after.calls = 0
          else ∃ later reply, after.calls = later ++ [⟨.workingDirectory, reply⟩]
            ∧ askCount later = 0 := by
  intro after
  have hagrees : keeping.Agrees s ⟨s, []⟩ [] := by
    refine ⟨rfl, trivial, hs, List.nodup_nil, ?_, rfl⟩
    intro h hmem
    cases hmem
  obtain ⟨past, ⟨asked, ⟨hheld, hspent⟩, hasked⟩, hpast⟩ :=
    (resolve_keeps_ledger limits env path exact).run (keeping.honoured s) hagrees
  have hcalls : after.calls = past := hpast.calls_eq
  have hcard := hpast.card_eq
  rw [hcalls]
  refine ⟨.of_regular hpast.regular hheld, ?_, hspent.reads_le, hspent.opens_le, ?_⟩
  · unfold live at hcard
    rw [hheld, List.length_nil, Nat.zero_add] at hcard
    exact hcard
  · intro argument mode hpath hmode
    have hcount : askCount past = askedFor argument.asText :=
      hspent.asks_eq.trans (hasked argument mode hpath hmode)
    unfold askedFor at hcount
    split
    · next habsolute => rw [hcount, if_pos habsolute]
    · next hrelative =>
      rw [if_neg hrelative] at hcount
      exact asked_first hpast.regular hcount

end

/-- From the second close on every close fails: the move up breaks off, its two
handles stay open, and the first one was given back. -/
theorem resolve_keeps_handles_failing_close :
    let s : Injected Store := ⟨.sample, [⟨.close, none, 1, .foreign (text "MemoryError") []⟩]⟩
    let after := ((resolve .standard .empty (.string (text "/d/../l/f")) (.truth true)).run
      (Dialogue.recording (injecting Store.answer)) ⟨s, []⟩).state
    HandleDiscipline after.calls ∧ leaked after.calls = 2
      ∧ (after.state.state.handles.handles).card = s.state.handles.handles.card + 2 := by
  intro s after
  have hs : Store.handleKeeping.injecting.valid s := Store.sample_reachable.wellFormed.handles
  have hleaked : leaked after.calls = 2 := rfl
  obtain ⟨hdiscipline, hcard, -⟩ := resolve_keeps_handles Store.handleKeeping.injecting s hs
    .standard .empty (.string (text "/d/../l/f")) (.truth true)
  exact ⟨hdiscipline, hleaked, hleaked ▸ hcard⟩

end PathResolution
