/-
Which failed call a resolution fails with.

The calls of a resolution tell where it stands. `position` reads off a history,
the latest call first, which names wait and which were committed, and knows
nothing of the loop: a link that was read puts its target's names in front, one
that could not be read commits its name, and opening `..` drops one. From there
it can be said which call is due (`Due`), whether the resolution goes on after
it (`Passes`), which for a failed call means that it is tolerated, and at which
path it is reported otherwise (`failurePath`).

`Accounted` lists the ways in which a resolution can end: with the path that the
position spells, with a failed call that is not tolerated, or with one of the
failures that a resolution has of its own. In each of them the resolution went
on after every call before the end, and nothing else is asked after the end than
to release the handle that was opened last (`resolve_accounts`).

A failed call makes a resolution error if its number fits the system's. There is
no text for a number that does not, and to ask for one ends the resolution with
a fault that no one translates (`resolve_escapes_with_large_number`).

The invariant is that loop and history agree (`Agreeing`) on what was committed
and on what waits, up to the leading `.` names, which are taken without a call.
-/
import PathResolution.Proofs.Handles.Ledger
import PathResolution.Proofs.Reachable
import PathResolution.Proofs.Resolution.Course
import PathResolution.Proofs.Resolution.Spelling

namespace PathResolution

-- =========================================================== positions

/-- Where a resolution stands, as far as its calls tell. -/
structure Position where
  /-- What waits, the next name first. -/
  pending : List Name
  /-- What was committed, the innermost name first. -/
  trail : List Name
  /-- How many names were taken. -/
  taken : Nat

namespace Position

/-- The next name that takes a call. -/
def name? (p : Position) : Option Name := (p.pending.dropWhile (· = dot)).head?

/-- The position once that name is taken, together with the `.` names before
it, for which there is no call. -/
def next (p : Position) : Position where
  pending := (p.pending.dropWhile (· = dot)).tail
  trail := p.trail
  taken := p.taken + (p.pending.takeWhile (· = dot)).length + 1

/-- The position after a call of a resolution of `path`. -/
def after (p : Position) (path : Text) : Call → Position
  | ⟨.workingDirectory, .ok directory⟩ => ⟨startingNames path directory, [], 0⟩
  | ⟨.readLink _ _, .ok target⟩ =>
    { p.next with pending := names target ++ p.next.pending, trail := linkTrail target p.trail }
  | ⟨.readLink _ name, .error _⟩ => { p.next with trail := name :: p.trail }
  | ⟨.openRelative _ name, _⟩ => if name = dotDot then { p.next with trail := p.trail.tail } else p
  | _ => p

section

variable {p : Position} {dots rest : List Name} {name : Name}

theorem name?_of_dots (hdots : ∀ n ∈ dots, n = dot) (hname : name ≠ dot)
    (h : p.pending = dots ++ name :: rest) : p.name? = some name := by
  have hall : ∀ n ∈ dots, decide (n = dot) = true := fun n hn => decide_eq_true (hdots n hn)
  unfold name?
  rw [h, List.dropWhile_append_of_pos hall, List.dropWhile_cons, if_neg (by simpa using hname),
    List.head?_cons]

theorem next_of_dots (hdots : ∀ n ∈ dots, n = dot) (hname : name ≠ dot)
    (h : p.pending = dots ++ name :: rest) :
    p.next = ⟨rest, p.trail, p.taken + dots.length + 1⟩ := by
  have hall : ∀ n ∈ dots, decide (n = dot) = true := fun n hn => decide_eq_true (hdots n hn)
  have hstop : ¬ decide (name = dot) = true := by simpa using hname
  unfold next
  rw [h, List.dropWhile_append_of_pos hall, List.takeWhile_append_of_pos hall,
    List.dropWhile_cons, if_neg hstop, List.takeWhile_cons, if_neg hstop, List.append_nil,
    List.tail_cons]

end

end Position

/-- The position after a history of calls. -/
def position (path : Text) : List Call → Position
  | [] => ⟨startingNames path [], [], 0⟩
  | call :: past => (position path past).after path call

/-- The handle that was opened last. -/
def lastOpened (past : List Call) : Option Handle := past.findSome? Call.opened?

/-- The release of the handle that was opened last, if one was. -/
def release (past : List Call) : List Call :=
  (lastOpened past).toList.map fun h => ⟨.close h, .ok ()⟩

-- ================================================================= calls

/-- A link is read, or a directory opened, by the next name, within the budget
and through the handle that was opened last; or the name that was committed last
is opened. -/
def Due (limits : Limits) (path : Text) (past : List Call) : Primitive → Prop
  | .readLink base name =>
    lastOpened past = some base ∧ (position path past).name? = some name
      ∧ (position path past).next.taken ≤ limits.loopBudget
  | .openRelative base name =>
    lastOpened past = some base ∧
      if name = dotDot then
        (position path past).name? = some dotDot
          ∧ (position path past).next.taken ≤ limits.loopBudget
      else (position path past).trail.head? = some name
  | .openRoot | .close _ | .workingDirectory => True

/-- What a resolution puts up with: that a name is no link, and in the lenient
mode that the last name does not exist. -/
def Tolerated (mode : ExistenceMode) (p : Position) : Primitive → Fault → Prop
  | .readLink _ _, fault =>
    fault.code? = some Errno.invalidArgument
      ∨ (mode = .missingOk ∧ p.next.pending = [] ∧ fault.code? = some Errno.noEntry)
  | _, _ => False

def Call.fault? : Call → Option Fault
  | ⟨_, .error fault⟩ => some fault
  | ⟨_, .ok _⟩ => none

/-- A resolution goes on after a link that it can follow, and after a failure
only if it tolerates it. -/
def Passes (limits : Limits) (mode : ExistenceMode) (p : Position) : Call → Prop
  | ⟨.readLink _ name, .ok target⟩ => refusal? limits.maxLinkSize name target p.trail = none
  | ⟨question, .error fault⟩ => Tolerated mode p question fault
  | _ => True

/-- The resolution went on after every call. -/
def Uneventful (limits : Limits) (mode : ExistenceMode) (path : Text) : List Call → Prop
  | [] => True
  | call :: past => Passes limits mode (position path past) call ∧ Uneventful limits mode path past

/-- Where a call that failed is reported, after a history of calls. A name that
is opened was committed before, so it is the innermost one. -/
def failurePath (path : Text) (past : List Call) : Primitive → Text
  | .workingDirectory | .close _ => path
  | .openRoot => if lastOpened past = none then path else trailPath []
  | .readLink _ name => trailPath (name :: (position path past).trail)
  | .openRelative _ name =>
    let above := (position path past).trail.tail
    trailPath (if name = dotDot then above else name :: above)

-- =========================================================== accounting

/-- The ways in which a resolution ends, each with the calls up to its end, the
latest first; what is left to do then is the release. -/
inductive Accounted (limits : Limits) (mode : ExistenceMode) (path : Text) :
    Except Failure Text → List Call → Prop
  /-- All names are taken. -/
  | answered {past : List Call} : Uneventful limits mode path past →
      (∀ n ∈ (position path past).pending, n = dot) →
      (position path past).taken + (position path past).pending.length ≤ limits.loopBudget →
      Accounted limits mode path (.ok (trailPath (position path past).trail)) past
  /-- A call fails that is not tolerated. -/
  | failed {past : List Call} {call : Call} {fault : Fault} :
      Uneventful limits mode path past → call.fault? = some fault →
      ¬ Tolerated mode (position path past) call.question fault →
      (reportedCode fault.code?).IsRepresentable →
      Accounted limits mode path
        (.error (.resolution ⟨reportedCode fault.code?,
          some (.text (failurePath path past call.question)), some fault⟩)) (call :: past)
  /-- A call fails that is not tolerated, and there is no error with its number. -/
  | unreported {past : List Call} {call : Call} {fault : Fault} :
      Uneventful limits mode path past → call.fault? = some fault →
      ¬ Tolerated mode (position path past) call.question fault →
      ¬ (reportedCode fault.code?).IsRepresentable →
      Accounted limits mode path (.error (.fault .numberTooLarge)) (call :: past)
  /-- A name waits, and as many as the budget allows were taken. -/
  | outOfBudget {past : List Call} {dots rest : List Name} {name : Name} :
      Uneventful limits mode path past → (∀ n ∈ dots, n = dot) →
      (position path past).pending = dots ++ name :: rest →
      (position path past).taken + dots.length = limits.loopBudget →
      Accounted limits mode path (.error (.resolution
        (.at Errno.tooManyLinks (trailPath (name :: (position path past).trail))))) past
  /-- A link cannot be followed. -/
  | refused {past : List Call} {base : Handle} {name : Name} {target : Text}
      {failure : Failure} : Uneventful limits mode path past →
      refusal? limits.maxLinkSize name target (position path past).trail = some failure →
      Accounted limits mode path (.error (failure.reportedAt path))
        (⟨.readLink base name, .ok target⟩ :: past)

theorem Accounted.of_fault (limits : Limits) {mode : ExistenceMode} {path : Text}
    {past : List Call} (question : Primitive) (fault : Fault)
    (huneventful : Uneventful limits mode path past)
    (hfatal : ¬ Tolerated mode (position path past) question fault) :
    Accounted limits mode path
      (.error (.ofCode (reportedCode fault.code?)
        (some (.text (failurePath path past question))) (some fault)))
      (⟨question, .error fault⟩ :: past) := by
  by_cases hfits : (reportedCode fault.code?).IsRepresentable
  · rw [Failure.ofCode_eq hfits]
    exact @failed limits mode path past ⟨question, .error fault⟩ fault huneventful rfl hfatal hfits
  · rw [Failure.ofCode_of_not_representable hfits]
    exact @unreported limits mode path past ⟨question, .error fault⟩ fault huneventful rfl hfatal
      hfits

-- ============================================================== protocol

/-- An error of the system, by number or by name. -/
def Fault.IsPlain : Fault → Prop
  | .system _ _ | .unnumbered _ => True
  | .resolution _ _ | .refused _ | .interrupted _ | .nestedTooDeeply | .foreign _ _ => False

theorem Fault.IsPlain.failureAt {fault : Fault} (h : fault.IsPlain) (path : Text) :
    fault.failureAt path
      = .ofCode (reportedCode fault.code?) (some (.text path)) (some fault) := by
  cases fault <;> first | exact h.elim | rfl

theorem Fault.IsPlain.report? {fault : Fault} (h : fault.IsPlain) :
    fault.report? = some fault.code? := by
  cases fault <;> first | exact h.elim | rfl

/-- A call fails with a plain fault if it fails, and is no close then. -/
def Plain (question : Primitive) (reply : question.Reply) : Prop :=
  ∀ fault, reply = .error fault → fault.IsPlain ∧ ∀ h, question ≠ .close h

theorem Plain.ok {h : Handle} {reply : Except Fault Unit} (hreply : Plain (.close h) reply) :
    reply = .ok () := by
  cases reply with
  | ok _ => rfl
  | error fault => exact absurd rfl ((hreply fault rfl).2 h)

/-- What is due is asked, and calls fail in plain ways only. -/
def plainProtocol (limits : Limits) (path : Text) : Protocol (List Call) :=
  .ofHistory (Due limits path) fun _ => Plain

-- ============================================================= agreement

section

variable {limits : Limits} {mode : ExistenceMode} {path : Text} {budget : Nat} {past : List Call}
  {h : Handle} {pending trail : List Name} {name : Name}

/-- The loop at its head, with this budget left, and the history tell the
same. -/
structure Agreeing (limits : Limits) (mode : ExistenceMode) (path : Text) (budget : Nat)
    (v : Visit) (past : List Call) : Prop where
  uneventful : Uneventful limits mode path past
  opened : ∃ h, lastOpened past = some h ∧ v.cursor = ⟨some h⟩
  trail_eq : (position path past).trail = v.trail
  pending_eq : ∃ dots, (∀ n ∈ dots, n = dot) ∧ (position path past).pending = dots ++ v.pending
    ∧ (position path past).taken + dots.length + budget = limits.loopBudget

/-- The history while a name is taken that is not `.`, with these names behind
it. -/
structure Taking (limits : Limits) (mode : ExistenceMode) (path : Text) (budget : Nat)
    (name : Name) (pending trail : List Name) (h : Handle) (past : List Call) : Prop where
  uneventful : Uneventful limits mode path past
  opened : lastOpened past = some h
  name?_eq : (position path past).name? = some name
  trail_eq : (position path past).trail = trail
  pending_eq : (position path past).next.pending = pending
  taken_eq : (position path past).next.taken + budget = limits.loopBudget

theorem Agreeing.taking {cursor : Cursor} (hname : name ≠ dot)
    (ha : Agreeing limits mode path (budget + 1) ⟨name :: pending, trail, cursor⟩ past) :
    ∃ h, cursor = ⟨some h⟩ ∧ Taking limits mode path budget name pending trail h past := by
  obtain ⟨huneventful, ⟨h, hopened, hcursor⟩, htrail, dots, hdots, hpending, htaken⟩ := ha
  have hnext := Position.next_of_dots hdots hname hpending
  refine ⟨h, hcursor, huneventful, hopened, Position.name?_of_dots hdots hname hpending,
    htrail, ?_, ?_⟩
  · rw [hnext]
  · rw [hnext]
    show _ + dots.length + 1 + budget = _
    omega

/-- The loop has ended, and the history accounts for it. -/
def Ended (limits : Limits) (mode : ExistenceMode) (path : Text) (a : LoopAnswer)
    (past : List Call) : Prop :=
  a.2 = ⟨lastOpened past⟩
    ∧ Accounted limits mode path ((a.1.map trailPath).mapError (·.reportedAt path)) past

/-- What is known after a name was taken. -/
def Progress.Accounts (limits : Limits) (mode : ExistenceMode) (path : Text) (budget : Nat) :
    Progress → List Call → Prop
  | .onward v, past => Agreeing limits mode path budget v past
  | .arrived trail cursor, past => Ended limits mode path (.ok trail, cursor) past
  | .stuck failure cursor, past => Ended limits mode path (.error failure, cursor) past

-- ================================================================ moves

/-- The failure of a move is reported at the path that its question stands
for. -/
theorem stuck_accounts {question : Primitive} {fault : Fault} {filename : Text}
    (huneventful : Uneventful limits mode path past) (hopened : lastOpened past = some h)
    (hfault : fault.IsPlain) (hmove : ∀ base name, question ≠ .readLink base name)
    (hfilename : failurePath path past question = filename) :
    (Progress.stuck (fault.failureAt filename) ⟨some h⟩).Accounts limits mode path budget
      (⟨question, .error fault⟩ :: past) := by
  have hsilent : Call.opened? ⟨question, .error fault⟩ = none := by cases question <;> rfl
  have hfatal : ¬ Tolerated mode (position path past) question fault := by
    cases question with
    | readLink base name => exact absurd rfl (hmove base name)
    | openRoot => exact id
    | openRelative base name => exact id
    | close handle => exact id
    | workingDirectory => exact id
  refine ⟨?_, ?_⟩
  · rw [lastOpened, List.findSome?_cons, hsilent]
    exact congrArg _ hopened.symm
  · have hended := Accounted.of_fault limits question fault huneventful hfatal
    rw [hfault.failureAt, ← hfilename]
    show Accounted limits mode path (.error (Failure.reportedAt path _)) _
    rw [Failure.reportedAt_ofCode]
    exact hended

/-- A move, once its question is answered: the handover adds a close to the
history, which changes nothing in the position. -/
theorem move_accounts {entry : LogEntry} {filename : Text} {reply : Except Fault Handle}
    (hok : ∀ new, reply = .ok new →
      Agreeing limits mode path budget ⟨pending, trail, ⟨some new⟩⟩ past)
    (herror : ∀ fault, reply = .error fault →
      (Progress.stuck (fault.failureAt filename) ⟨some h⟩).Accounts limits mode path budget past) :
    ((Cursor.land ⟨some h⟩ entry reply).bind (afterMove filename trail pending)).Follows
      (plainProtocol limits path) (Progress.Accounts limits mode path budget) past := by
  cases reply with
  | error fault => exact herror fault rfl
  | ok new =>
      obtain ⟨huneventful, hopened, htrail, hpending⟩ := hok new rfl
      refine ⟨trivial, fun reply hreply => ?_⟩
      rw [Plain.ok hreply]
      exact ⟨⟨trivial, huneventful⟩, hopened, htrail, hpending⟩

theorem climb_accounts
    (ht : Taking limits mode path budget dotDot pending trail h past) :
    (climb ⟨pending, trail, ⟨some h⟩⟩).Follows (plainProtocol limits path)
      (Progress.Accounts limits mode path budget) past := by
  have hbudget : (position path past).next.taken ≤ limits.loopBudget := by
    have htaken := ht.taken_eq
    omega
  refine ⟨⟨ht.opened, ht.name?_eq, hbudget⟩, fun reply hreply => move_accounts ?_ ?_⟩
  · rintro new rfl
    exact ⟨⟨trivial, ht.uneventful⟩, ⟨new, rfl, rfl⟩, congrArg List.tail ht.trail_eq, [], nofun,
      ht.pending_eq, ht.taken_eq⟩
  · rintro fault rfl
    refine stuck_accounts ht.uneventful ht.opened (hreply fault rfl).1 nofun ?_
    exact congrArg (fun trail => trailPath trail.tail) ht.trail_eq

/-- A name that was committed is opened. -/
theorem descend_accounts (hname : name ≠ dotDot)
    (ha : Agreeing limits mode path budget ⟨pending, name :: trail, ⟨some h⟩⟩ past) :
    ((Cursor.descend ⟨some h⟩ name).bind
        (afterMove (trailPath (name :: trail)) (name :: trail) pending)).Follows
      (plainProtocol limits path) (Progress.Accounts limits mode path budget) past := by
  obtain ⟨huneventful, ⟨h', hopened, hcursor⟩, htrail, hpending⟩ := ha
  obtain rfl : h' = h := Option.some.inj (Cursor.mk.inj hcursor).symm
  have hhead : (position path past).trail.head? = some name := by rw [htrail]; rfl
  refine ⟨⟨hopened, by rw [if_neg hname]; exact hhead⟩, fun reply hreply => move_accounts ?_ ?_⟩
  · rintro new rfl
    have hafter : position path (⟨.openRelative h' name, .ok new⟩ :: past) = position path past :=
      if_neg hname
    exact ⟨⟨trivial, huneventful⟩, ⟨new, rfl, rfl⟩, hafter ▸ htrail, hafter ▸ hpending⟩
  · rintro fault rfl
    refine stuck_accounts huneventful hopened (hreply fault rfl).1 nofun ?_
    simp only [failurePath, if_neg hname, htrail, List.tail_cons]

-- ================================================================ names

theorem commit_accounts (hname : name ≠ dotDot)
    (ha : Agreeing limits mode path budget ⟨pending, name :: trail, ⟨some h⟩⟩ past) :
    (commit name ⟨pending, trail, ⟨some h⟩⟩).Follows (plainProtocol limits path)
      (Progress.Accounts limits mode path budget) past := by
  unfold commit
  split
  · exact ha
  · exact descend_accounts hname ha

/-- A link is followed unless there is a reason to refuse it. -/
theorem followLink_eq (maxLinkSize : Nat) (name : Name) (target : Text) (v : Visit) :
    followLink maxLinkSize name target v =
      match refusal? maxLinkSize name target v.trail with
      | some failure => .done (.stuck failure v.cursor)
      | none => .tell (.followed name target) <|
          if isAbsolute target then
            v.cursor.reset.bind (afterMove (trailPath []) [] (names target ++ v.pending))
          else .done (.onward { v with pending := names target ++ v.pending }) := by
  unfold followLink refusal?
  split
  · rfl
  · cases utf8 target with
    | error u => rfl
    | ok bytes =>
        dsimp only
        split <;> rfl

theorem followLink_accounts {target : Text}
    (ht : Taking limits mode path budget name pending trail h past) :
    (followLink limits.maxLinkSize name target ⟨pending, trail, ⟨some h⟩⟩).Follows
      (plainProtocol limits path) (Progress.Accounts limits mode path budget)
      (⟨.readLink h name, .ok target⟩ :: past) := by
  have htrail := ht.trail_eq
  rw [followLink_eq]
  cases hrefusal : refusal? limits.maxLinkSize name target trail with
  | some failure =>
      refine ⟨congrArg _ ht.opened.symm, .refused ht.uneventful ?_⟩
      rw [htrail, hrefusal]
  | none =>
      have hpasses : Passes limits mode (position path past) ⟨.readLink h name, .ok target⟩ := by
        show refusal? _ name target (position path past).trail = none
        rw [htrail, hrefusal]
      have huneventful : Uneventful limits mode path (⟨.readLink h name, .ok target⟩ :: past) :=
        ⟨hpasses, ht.uneventful⟩
      have hpending : (position path (⟨.readLink h name, .ok target⟩ :: past)).pending
          = names target ++ pending := congrArg (names target ++ ·) ht.pending_eq
      have hlink : (position path (⟨.readLink h name, .ok target⟩ :: past)).trail
          = linkTrail target trail := congrArg (linkTrail target) htrail
      show Dialogue.Follows _ _ _ _
      by_cases habsolute : isAbsolute target = true
      · rw [if_pos habsolute]
        rw [linkTrail, if_pos habsolute] at hlink
        refine ⟨trivial, fun reply hreply => move_accounts ?_ ?_⟩
        · rintro new rfl
          exact ⟨⟨trivial, huneventful⟩, ⟨new, rfl, rfl⟩, hlink, [], nofun, hpending, ht.taken_eq⟩
        · rintro fault rfl
          refine stuck_accounts huneventful ht.opened (hreply fault rfl).1 nofun ?_
          have hsome : lastOpened (⟨.readLink h name, .ok target⟩ :: past) = some h := ht.opened
          rw [failurePath, hsome, if_neg (Option.some_ne_none h)]
      · rw [if_neg habsolute]
        rw [linkTrail, if_neg habsolute] at hlink
        exact ⟨huneventful, ⟨h, ht.opened, rfl⟩, hlink, [], nofun, hpending, ht.taken_eq⟩

theorem afterUnreadable_accounts {fault : Fault} (hname : name ≠ dotDot) (hfault : fault.IsPlain)
    (ht : Taking limits mode path budget name pending trail h past) :
    (afterUnreadable mode name ⟨pending, trail, ⟨some h⟩⟩ fault).Follows
      (plainProtocol limits path) (Progress.Accounts limits mode path budget)
      (⟨.readLink h name, .error fault⟩ :: past) := by
  have htrail : (position path (⟨.readLink h name, .error fault⟩ :: past)).trail = name :: trail :=
    congrArg (name :: ·) ht.trail_eq
  simp only [afterUnreadable, hfault.report?]
  by_cases hnoLink : fault.code? = some Errno.invalidArgument
  · rw [if_pos hnoLink]
    refine commit_accounts hname ⟨⟨.inl hnoLink, ht.uneventful⟩, ⟨h, ht.opened, rfl⟩, htrail, [],
      nofun, ht.pending_eq, ht.taken_eq⟩
  · rw [if_neg hnoLink]
    by_cases hlast : mode = .missingOk ∧ pending.isEmpty ∧ fault.code? = some Errno.noEntry
    · rw [if_pos hlast]
      have hnone : (position path past).next.pending = [] :=
        ht.pending_eq.trans (List.isEmpty_iff.mp hlast.2.1)
      have huneventful : Uneventful limits mode path (⟨.readLink h name, .error fault⟩ :: past) :=
        ⟨.inr ⟨hlast.1, hnone, hlast.2.2⟩, ht.uneventful⟩
      have hrest : (position path (⟨.readLink h name, .error fault⟩ :: past)).pending = [] := hnone
      have htaken : (position path (⟨.readLink h name, .error fault⟩ :: past)).taken
          + budget = limits.loopBudget := ht.taken_eq
      refine ⟨congrArg _ ht.opened.symm, ?_⟩
      have hended := Accounted.answered huneventful (by rw [hrest]; exact nofun)
        (by rw [hrest, List.length_nil]; omega)
      rw [htrail] at hended
      exact hended
    · rw [if_neg hlast]
      refine ⟨congrArg _ ht.opened.symm, ?_⟩
      have hfatal : ¬ Tolerated mode (position path past) (.readLink h name) fault := by
        rintro (htolerated | ⟨hmode, hnone, hcode⟩)
        · exact hnoLink htolerated
        · exact hlast ⟨hmode, List.isEmpty_iff.mpr (ht.pending_eq.symm.trans hnone), hcode⟩
      have hended := Accounted.of_fault limits _ fault ht.uneventful hfatal
      rw [show failurePath path past (.readLink h name) = trailPath (name :: trail) from
        congrArg (fun trail => trailPath (name :: trail)) ht.trail_eq] at hended
      show Accounted limits mode path (.error (Failure.reportedAt path _)) _
      rw [Failure.reportedAt_ofCode]
      exact hended

/-- A name is taken: without a call if it is `.`, and otherwise with the call
that is due. -/
theorem takeName_accounts {cursor : Cursor}
    (ha : Agreeing limits mode path (budget + 1) ⟨name :: pending, trail, cursor⟩ past) :
    (takeName mode limits.maxLinkSize name ⟨pending, trail, cursor⟩).Follows
      (plainProtocol limits path) (Progress.Accounts limits mode path budget) past := by
  unfold takeName
  by_cases hdot : name = dot
  · rw [if_pos hdot]
    obtain ⟨huneventful, hopened, htrail, dots, hdots, hpending, htaken⟩ := ha
    refine ⟨huneventful, hopened, htrail, dots ++ [name], ?_, ?_, ?_⟩
    · intro n hn
      rcases List.mem_append.mp hn with hn | hn
      · exact hdots n hn
      · exact (List.mem_singleton.mp hn).trans hdot
    · rw [hpending, List.append_assoc, List.singleton_append]
    · rw [List.length_append, List.length_singleton]
      omega
  · rw [if_neg hdot]
    obtain ⟨h, rfl, ht⟩ := ha.taking hdot
    by_cases hdotDot : name = dotDot
    · subst hdotDot
      rw [if_pos rfl]
      exact climb_accounts ht
    · rw [if_neg hdotDot]
      have hbudget : (position path past).next.taken ≤ limits.loopBudget := by
        have htaken := ht.taken_eq
        omega
      refine ⟨⟨ht.opened, ht.name?_eq, hbudget⟩, fun reply hreply => ?_⟩
      cases reply with
      | ok target => exact followLink_accounts ht
      | error fault => exact afterUnreadable_accounts hdotDot (hreply fault rfl).1 ht

-- ================================================================== loop

theorem takeNames_accounts :
    ∀ (budget : Nat) (v : Visit) (past : List Call), Agreeing limits mode path budget v past →
      (takeNames mode limits.maxLinkSize budget v).Follows (plainProtocol limits path)
        (Ended limits mode path) past := by
  have harrived : ∀ {budget : Nat} {trail : List Name} {cursor : Cursor} {past : List Call},
      Agreeing limits mode path budget ⟨[], trail, cursor⟩ past →
        Ended limits mode path (.ok trail, cursor) past := by
    rintro budget trail cursor past ⟨huneventful, ⟨h, hopened, rfl⟩, rfl, dots, hdots, hpending,
      htaken⟩
    rw [List.append_nil] at hpending
    refine ⟨congrArg _ hopened.symm, .answered huneventful ?_ ?_⟩
    · rw [hpending]
      exact hdots
    · rw [hpending]
      omega
  intro budget
  induction budget with
  | zero =>
      intro ⟨pending, trail, cursor⟩ past ha
      cases pending with
      | nil => exact harrived ha
      | cons name pending =>
          obtain ⟨huneventful, ⟨h, hopened, rfl⟩, rfl, dots, hdots, hpending, htaken⟩ := ha
          exact ⟨congrArg _ hopened.symm, .outOfBudget huneventful hdots hpending htaken⟩
  | succ budget ih =>
      intro ⟨pending, trail, cursor⟩ past ha
      cases pending with
      | nil => exact harrived ha
      | cons name pending =>
          refine (takeName_accounts ha).bind fun progress past h => ?_
          cases progress with
          | onward v => exact ih v past h
          | arrived trail cursor => exact h
          | stuck failure cursor => exact h

-- ============================================================ whole paths

/-- The calls of a resolution that has ended, with what they account for. -/
def Released (limits : Limits) (mode : ExistenceMode) (path : Text) (a : Except Failure Text)
    (calls : List Call) : Prop :=
  ∃ past, calls = release past ++ past ∧ Accounted limits mode path a past

theorem leave_accounts {a : LoopAnswer} (ha : Ended limits mode path a past) :
    (leave a).Follows (plainProtocol limits path)
      (fun b => Released limits mode path (b.mapError (·.reportedAt path))) past := by
  obtain ⟨answer, cursor⟩ := a
  obtain ⟨hcursor, hended⟩ := ha
  have hcursor : cursor = ⟨lastOpened past⟩ := hcursor
  subst hcursor
  cases hopened : lastOpened past with
  | none => exact ⟨past, by rw [release, hopened]; rfl, hended⟩
  | some h =>
      refine ⟨trivial, fun reply hreply => ?_⟩
      rw [Plain.ok hreply]
      exact ⟨past, by rw [release, hopened]; rfl, hended⟩

theorem visitNames_accounts (past : List Call) (huneventful : Uneventful limits mode path past)
    (hopened : lastOpened past = none) (htrail : (position path past).trail = [])
    (htaken : (position path past).taken = 0) :
    (visitNames mode limits (position path past).pending).Follows (plainProtocol limits path)
      (fun b => Released limits mode path (b.mapError (·.reportedAt path))) past := by
  unfold visitNames
  refine ⟨trivial, fun reply hreply => ?_⟩
  cases reply with
  | error fault =>
      have hfault : fault.IsPlain := (hreply fault rfl).1
      have hended := Accounted.of_fault limits .openRoot fault huneventful id
      rw [failurePath, if_pos hopened, ← hfault.failureAt] at hended
      refine ⟨_, ?_, hended⟩
      rw [release, lastOpened, List.findSome?_cons]
      show _ = ((lastOpened past).toList.map _) ++ _
      rw [hopened]
      rfl
  | ok root =>
      refine (takeNames_accounts _ _ _ ?_).bind fun a past ha => leave_accounts ha
      refine ⟨⟨trivial, huneventful⟩, ⟨root, rfl, rfl⟩, htrail, [], nofun, rfl, ?_⟩
      show (position path past).taken + 0 + limits.loopBudget = limits.loopBudget
      omega

theorem canonicalPathShown_accounts (shown : Text) :
    (canonicalPathShown shown limits mode path).Follows (plainProtocol limits path)
      (Released limits mode path) [] := by
  unfold canonicalPathShown startingDirectory
  split
  · refine (visitNames_accounts [] trivial rfl rfl rfl).bind fun b calls hb => hb
  · refine ⟨trivial, fun reply hreply => ?_⟩
    cases reply with
    | error fault =>
        have hstart : Uneventful limits mode path [] := trivial
        have hended := Accounted.of_fault limits .workingDirectory fault hstart id
        rw [← (hreply fault rfl).1.failureAt] at hended
        exact ⟨_, rfl, hended⟩
    | ok directory =>
        exact (visitNames_accounts [⟨.workingDirectory, .ok directory⟩]
          ⟨trivial, trivial⟩ rfl rfl rfl).bind fun b calls hb => hb

end

-- ================================================================== runs

namespace Dialogue

variable {α σ : Type} {answer : Answering σ}

/-- A record only grows. -/
theorem mem_calls_of_recorded (d : Dialogue α) (r : Recorded σ) {call : Call}
    (h : call ∈ r.calls) : call ∈ (d.run (recording answer) r).state.calls := by
  induction d generalizing r with
  | done value => exact h
  | tell entry rest ih =>
      rw [run_tell]
      exact ih r h
  | ask question next ih =>
      rw [run_ask]
      exact ih _ _ (List.mem_cons_of_mem _ h)

/-- The promise of a dialogue about its history holds of every run in which the
replies were as they were to be expected. -/
theorem Follows.run_recording {permits : List Call → Primitive → Prop}
    {expects : (question : Primitive) → question.Reply → Prop} {post : α → List Call → Prop}
    {d : Dialogue α} {r : Recorded σ}
    (h : d.Follows (.ofHistory permits fun _ => expects) post r.calls)
    (hpast : (Protocol.ofHistory permits fun _ => expects).Regular r.calls)
    (hreplies : ∀ call ∈ (d.run (recording answer) r).state.calls,
      expects call.question call.reply) :
    let ended := d.run (recording answer) r
    post ended.value ended.state.calls
      ∧ (Protocol.ofHistory permits fun _ => expects).Regular ended.state.calls := by
  induction d generalizing r with
  | done value => exact ⟨h, hpast⟩
  | tell entry rest ih =>
      rw [run_tell] at hreplies ⊢
      exact ih h hpast hreplies
  | ask question next ih =>
      rw [run_ask] at hreplies ⊢
      have hreply : expects question (answer question r.state).1 :=
        hreplies ⟨question, (answer question r.state).1⟩
          (mem_calls_of_recorded _ _ List.mem_cons_self)
      exact ih _ (h.2 _ hreply) ⟨h.1, hreply, hpast⟩ hreplies

end Dialogue

/-- Every run of a resolution whose calls fail in plain ways only, on any
filesystem, asks for what is due and is accounted for by its calls: the first
failed call that is not tolerated is the last one but for the release, and is
what the resolution fails with, unless its number does not fit. -/
theorem resolve_accounts {σ : Type} {answer : Dialogue.Answering σ} (s : σ) (limits : Limits)
    {env : Environment} {exact : Value} {mode : ExistenceMode} (hmode : exact.mode? env = .ok mode)
    (path : Text) :
    let ended := (resolve limits env (.string path) exact).run (Dialogue.recording answer) ⟨s, []⟩
    (∀ call ∈ ended.state.calls, Plain call.question call.reply) →
      (plainProtocol limits path).Regular ended.state.calls
        ∧ ∃ a past, ended.value = a.map .text ∧ ended.state.calls = release past ++ past
          ∧ Accounted limits mode path a past := by
  intro ended hplain
  have hfollows : (resolve limits env (.string path) exact).Follows (plainProtocol limits path)
      (fun b calls => ∃ a, b = a.map .text ∧ Released limits mode path a calls) [] := by
    simp only [resolve, Value.path?, hmode, canonicalArgument]
    exact (canonicalPathShown_accounts _).bind fun a calls ha => ⟨a, rfl, ha⟩
  obtain ⟨⟨a, hvalue, past, hcalls, haccounted⟩, hregular⟩ :=
    hfollows.run_recording (r := ⟨s, []⟩) trivial hplain
  exact ⟨hregular, a, past, hvalue, hcalls, haccounted⟩

/-- Behind a link, a directory that may not be opened is reported with its
name. -/
theorem resolve_accounts_closed_directory :
    let fault : Fault := .system (some Errno.permissionDenied) none
    let s : Injected Store := ⟨.sample, [⟨.openRelative, none, 0, fault⟩]⟩
    let ended := (resolve .standard .empty (.string (text "/l/f")) (.truth true)).run
      (Dialogue.recording (injecting Store.answer)) ⟨s, []⟩
    ended.value = .error (.resolution
        ⟨Errno.permissionDenied, some (.text (text "/d")), some fault⟩)
      ∧ ∃ a past, ended.value = a.map .text ∧ ended.state.calls = release past ++ past
        ∧ Accounted .standard .exact (text "/l/f") a past := by
  intro fault s ended
  have hcalls : ended.state.calls = [⟨.close 3, .ok ()⟩,
      ⟨.openRelative 3 (text "d"), .error fault⟩,
      ⟨.readLink 3 (text "d"), .error (Tree.faultAt Errno.invalidArgument (text "d"))⟩,
      ⟨.readLink 3 (text "l"), .ok (text "d")⟩, ⟨.openRoot, .ok 3⟩] := rfl
  have hplain : ∀ call ∈ ended.state.calls, Plain call.question call.reply := by
    rw [hcalls]
    simp only [List.forall_mem_cons, Plain]
    exact ⟨nofun, fun _ h => by cases h; exact ⟨trivial, nofun⟩,
      fun _ h => by cases h; exact ⟨trivial, nofun⟩, nofun, nofun, nofun⟩
  exact ⟨rfl, (resolve_accounts s .standard rfl (text "/l/f") hplain).2⟩

/-- An error of the system whose number does not fit is a plain one, and what
escapes in its place is no resolution error. -/
theorem resolve_escapes_with_large_number :
    let fault : Fault := .system (some 2147483648) none
    let s : Injected Store := ⟨.sample, [⟨.readLink, none, 0, fault⟩]⟩
    let ended := (resolve .standard .empty (.string (text "/l")) (.truth true)).run
      (Dialogue.recording (injecting Store.answer)) ⟨s, []⟩
    (∀ call ∈ ended.state.calls, Plain call.question call.reply)
      ∧ ended.state.calls
        = [⟨.close 3, .ok ()⟩, ⟨.readLink 3 (text "l"), .error fault⟩, ⟨.openRoot, .ok 3⟩]
      ∧ ended.value = .error (.fault .numberTooLarge)
      ∧ ∀ e, ended.value ≠ .error (.resolution e) := by
  intro fault s ended
  have hcalls : ended.state.calls
      = [⟨.close 3, .ok ()⟩, ⟨.readLink 3 (text "l"), .error fault⟩, ⟨.openRoot, .ok 3⟩] := rfl
  have hvalue : ended.value = .error (.fault .numberTooLarge) := rfl
  refine ⟨?_, hcalls, hvalue, ?_⟩
  · rw [hcalls]
    simp only [List.forall_mem_cons, Plain]
    exact ⟨nofun, fun _ h => by cases h; exact ⟨trivial, nofun⟩, nofun, nofun⟩
  · rw [hvalue]
    exact nofun

end PathResolution
