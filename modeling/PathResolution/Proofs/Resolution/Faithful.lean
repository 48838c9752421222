/-
A run against a store is the course through its tree.

The invariant is about the head of the loop: while names wait, the one handle
that is owned stands for the directory that the committed names spell
(`Standing`). Taking a name keeps it and does what `Tree.step` says
(`takeName_follows_step`), so the loop is the course (`takeNames_follows_course`)
and a whole resolution ends as the tree determines (`Store.resolved_eq`),
whatever handles are open on the store. The last name needs no directory: the
cursor stays behind when a file or a missing name is committed, and nobody
asks for it any more.
-/
import PathResolution.Proofs.Resolution.Course
import PathResolution.Proofs.Resolution.Spelling
import PathResolution.Proofs.Resolution.TreeView

namespace PathResolution

variable {t : Tree} {w : Text} {mode : ExistenceMode} {maxLinkSize : Nat} {d : DirId}
  {h : Handle} {name : Name} {pending trail : List Name} {view : View}

-- ================================================================ moves

/-- The cursor holds the one handle that is owned. -/
def Holding (c : Cursor) (d : DirId) (view : View) : Prop :=
  ∃ h, c = ⟨some h⟩ ∧ view = .only h d

/-- The handover to a handle that was just opened. -/
theorem land_follows_tree {c : DirId} {new : Handle} {entry : LogEntry} (hne : new ≠ h) :
    (Cursor.land ⟨some h⟩ entry (.ok new)).Follows (treeProtocol t w)
      (fun a view => a.1 = .ok () ∧ Holding a.2 c view) ((View.only h d).set new (some c)) := by
  refine ⟨?_, fun reply hreply => ?_⟩
  · show (((View.only h d).set new (some c)) h).isSome = true
    rw [View.set_of_ne (Ne.symm hne), View.only_self]
    rfl
  · have hok : reply = .ok () := hreply
    rw [hok]
    refine ⟨rfl, new, rfl, ?_⟩
    exact View.set_set_only hne

/-- A move to a directory that can be opened. -/
theorem move_follows_tree {c : DirId} {entry : LogEntry} (hopens : t.opens d name = .ok c) :
    ((⟨some h⟩ : Cursor).withHandle fun base =>
        .ask (.openRelative base name) (Cursor.land ⟨some h⟩ entry)).Follows (treeProtocol t w)
      (fun a view => a.1 = .ok () ∧ Holding a.2 c view) (.only h d) := by
  refine ⟨?_, fun reply hreply => ?_⟩
  · show (View.only h d h).isSome = true
    rw [View.only_self]
    rfl
  · obtain ⟨new, rfl, hnew⟩ := (hreply d View.only_self).2 c hopens
    show Dialogue.Follows _ _ _
      ((View.only h d).set new ((View.only h d h).bind fun d => (t.opens d name).toOption))
    rw [View.only_self, Option.bind_some, hopens]
    exact land_follows_tree (View.ne_of_only_eq_none hnew)

/-- A move to what is no directory. -/
theorem failing_move_follows_tree {fault : Fault} {entry : LogEntry}
    (hopens : t.opens d name = .error fault) :
    ((⟨some h⟩ : Cursor).withHandle fun base =>
        .ask (.openRelative base name) (Cursor.land ⟨some h⟩ entry)).Follows (treeProtocol t w)
      (fun a view => a.1 = .error fault ∧ Holding a.2 d view) (.only h d) := by
  refine ⟨?_, fun reply hreply => ?_⟩
  · show (View.only h d h).isSome = true
    rw [View.only_self]
    rfl
  · have herror := (hreply d View.only_self).1 fault hopens
    rw [herror]
    exact ⟨rfl, h, rfl, rfl⟩

theorem enter_follows_tree :
    Cursor.closed.enter.Follows (treeProtocol t w)
      (fun a view => a.1 = .ok () ∧ Holding a.2 Tree.root view) .nothing := by
  refine ⟨trivial, fun reply hreply => ?_⟩
  obtain ⟨h, rfl, -⟩ := hreply
  exact ⟨rfl, h, rfl, rfl⟩

theorem reset_follows_tree :
    (Cursor.reset ⟨some h⟩).Follows (treeProtocol t w)
      (fun a view => a.1 = .ok () ∧ Holding a.2 Tree.root view) (.only h d) := by
  refine ⟨trivial, fun reply hreply => ?_⟩
  obtain ⟨new, rfl, hnew⟩ := hreply
  exact land_follows_tree (View.ne_of_only_eq_none hnew)

theorem readLink_follows_tree :
    (Cursor.readLink ⟨some h⟩ name).Follows (treeProtocol t w)
      (fun a view => a = (t.target d name, ⟨some h⟩) ∧ view = .only h d) (.only h d) := by
  refine ⟨?_, fun reply hreply => ?_⟩
  · show (View.only h d h).isSome = true
    rw [View.only_self]
    rfl
  · have htarget := hreply d View.only_self
    rw [htarget]
    exact ⟨rfl, rfl⟩

theorem close_follows_tree {c : Cursor} (hc : Holding c d view) :
    c.close.Follows (treeProtocol t w) (fun a view => a.1 = .ok () ∧ view = .nothing) view := by
  obtain ⟨h, rfl, rfl⟩ := hc
  refine ⟨?_, fun reply hreply => ?_⟩
  · show (View.only h d h).isSome = true
    rw [View.only_self]
    rfl
  · exact ⟨hreply, View.only_set_none⟩

-- ================================================================ names

/-- At the head of the loop: while names wait, the cursor stands in the
directory that the committed names spell. -/
def Standing (t : Tree) (v : Visit) (view : View) : Prop :=
  ∃ d, Holding v.cursor d view ∧ (v.pending ≠ [] → t.spelled v.trail = some (.directory d))

/-- The progress of a run that makes a step, with the cursor where it should
be. -/
def Tracks (t : Tree) : Step → Progress → View → Prop
  | .onward pending trail, .onward v, view =>
    v.pending = pending ∧ v.trail = trail ∧ Standing t v view
  | .arrived trail, .arrived trail' c, view => trail' = trail ∧ ∃ d, Holding c d view
  | .stuck failure, .stuck failure' c, view => failure' = failure ∧ ∃ d, Holding c d view
  | _, _, _ => False

/-- A move that succeeds leads to the head of the loop. -/
theorem afterMove_follows_tree {path : Text} {a : Cursor.Answer Unit} {c : DirId}
    (ha : a.1 = .ok () ∧ Holding a.2 c view) (hspelled : t.spelled trail = some (.directory c)) :
    (afterMove path trail pending a).Follows (treeProtocol t w)
      (Tracks t (.onward pending trail)) view := by
  obtain ⟨outcome, cursor⟩ := a
  obtain ⟨rfl, hcursor⟩ := ha
  exact ⟨rfl, rfl, c, hcursor, fun _ => hspelled⟩

section

variable (hspelled : t.spelled trail = some (.directory d))

include hspelled

theorem climb_follows_step (wf : t.WellFormed) :
    (climb ⟨pending, trail, ⟨some h⟩⟩).Follows (treeProtocol t w)
      (Tracks t (.onward pending trail.tail)) (.only h d) := by
  unfold climb
  refine (move_follows_tree Tree.opens_dotDot).bind fun a view ha => ?_
  exact afterMove_follows_tree ha (wf.spelled_tail hspelled)

theorem commit_follows_directory (wf : t.WellFormed) {c : DirId} (hdot : name ≠ dot)
    (hdotDot : name ≠ dotDot) (hentry : t.entry? d name = some (.directory c)) :
    (commit name ⟨pending, trail, ⟨some h⟩⟩).Follows (treeProtocol t w)
      (Tracks t (.onward pending (name :: trail))) (.only h d) := by
  unfold commit
  split
  · next hnil =>
    refine ⟨rfl, rfl, d, ⟨h, rfl, rfl⟩, fun hne => ?_⟩
    exact absurd (List.isEmpty_iff.mp hnil) hne
  · refine (move_follows_tree (wf.opens_of_directory hdot hdotDot hentry)).bind
      fun a view ha => ?_
    exact afterMove_follows_tree ha ((Tree.spelled_cons hspelled name).trans hentry)

theorem commit_follows_file (wf : t.WellFormed) (hdot : name ≠ dot)
    (hdotDot : name ≠ dotDot) (hentry : t.entry? d name = some .file) :
    (commit name ⟨pending, trail, ⟨some h⟩⟩).Follows (treeProtocol t w)
      (Tracks t (t.step mode maxLinkSize name pending trail)) (.only h d) := by
  rw [Tree.step_file hspelled hdot hdotDot hentry]
  cases pending with
  | nil => exact ⟨rfl, rfl, d, ⟨h, rfl, rfl⟩, fun hne => absurd rfl hne⟩
  | cons next pending =>
      refine (failing_move_follows_tree (wf.opens_of_file hdot hdotDot hentry)).bind
        fun a view ha => ?_
      obtain ⟨outcome, cursor⟩ := a
      obtain ⟨rfl, hcursor⟩ := ha
      exact ⟨rfl, d, hcursor⟩

theorem followLink_follows_step {target : Text} (hdot : name ≠ dot)
    (hdotDot : name ≠ dotDot) (hentry : t.entry? d name = some (.link target)) :
    (followLink maxLinkSize name target ⟨pending, trail, ⟨some h⟩⟩).Follows (treeProtocol t w)
      (Tracks t (t.step mode maxLinkSize name pending trail)) (.only h d) := by
  have hholding : Holding ⟨some h⟩ d (.only h d) := ⟨h, rfl, rfl⟩
  rw [Tree.step_link hspelled hdot hdotDot hentry]
  by_cases hempty : target.isEmpty
  · simp only [followLink, refusal?, if_pos hempty]
    exact ⟨rfl, d, hholding⟩
  · cases hbytes : utf8 target with
    | error u =>
        simp only [followLink, refusal?, if_neg hempty, hbytes]
        exact ⟨rfl, d, hholding⟩
    | ok bytes =>
        by_cases hsize : maxLinkSize ≤ bytes.length
        · simp only [followLink, refusal?, if_neg hempty, hbytes, if_pos hsize]
          exact ⟨rfl, d, hholding⟩
        · simp only [followLink, refusal?, if_neg hempty, hbytes, if_neg hsize]
          show Dialogue.Follows _ _ _ _
          unfold linkTrail
          split
          · refine reset_follows_tree.bind fun a view ha => ?_
            exact afterMove_follows_tree ha rfl
          · exact ⟨rfl, rfl, d, hholding, fun _ => hspelled⟩

theorem afterUnreadable_follows_step (hdot : name ≠ dot) (hdotDot : name ≠ dotDot)
    (hentry : t.entry? d name = none) :
    (afterUnreadable mode name ⟨pending, trail, ⟨some h⟩⟩
        (Tree.faultAt Errno.noEntry name)).Follows (treeProtocol t w)
      (Tracks t (t.step mode maxLinkSize name pending trail)) (.only h d) := by
  have hholding : Holding ⟨some h⟩ d (.only h d) := ⟨h, rfl, rfl⟩
  have hcode : ¬ (some Errno.noEntry = some Errno.invalidArgument) := by decide
  rw [Tree.step_missing hspelled hdot hdotDot hentry]
  unfold afterUnreadable
  show Dialogue.Follows _ _ (if some Errno.noEntry = some Errno.invalidArgument then _ else _) _
  rw [if_neg hcode]
  by_cases hlast : mode = .missingOk ∧ pending.isEmpty
  · rw [if_pos hlast, if_pos ⟨hlast.1, hlast.2, rfl⟩]
    exact ⟨rfl, d, hholding⟩
  · rw [if_neg hlast, if_neg fun h => hlast ⟨h.1, h.2.1⟩]
    exact ⟨rfl, d, hholding⟩

/-- Taking a name is the step of the tree, and keeps the cursor with the
trail. -/
theorem takeName_follows_step (wf : t.WellFormed) :
    (takeName mode maxLinkSize name ⟨pending, trail, ⟨some h⟩⟩).Follows (treeProtocol t w)
      (Tracks t (t.step mode maxLinkSize name pending trail)) (.only h d) := by
  unfold takeName
  cases t.meets d name with
  | dot hname =>
      rw [if_pos hname, hname, Tree.step_dot]
      exact ⟨rfl, rfl, d, ⟨h, rfl, rfl⟩, fun _ => hspelled⟩
  | dotDot hname =>
      rw [if_neg (by rw [hname]; decide), if_pos hname, hname, Tree.step_dotDot]
      exact climb_follows_step hspelled wf
  | directory c hdot hdotDot hentry =>
      rw [if_neg hdot, if_neg hdotDot]
      refine readLink_follows_tree.bind fun a view ha => ?_
      obtain ⟨rfl, rfl⟩ := ha
      rw [Tree.target_of_entry hdot hdotDot hentry nofun,
        Tree.step_directory hspelled hdot hdotDot hentry]
      exact commit_follows_directory hspelled wf hdot hdotDot hentry
  | file hdot hdotDot hentry =>
      rw [if_neg hdot, if_neg hdotDot]
      refine readLink_follows_tree.bind fun a view ha => ?_
      obtain ⟨rfl, rfl⟩ := ha
      rw [Tree.target_of_entry hdot hdotDot hentry nofun]
      exact commit_follows_file hspelled wf hdot hdotDot hentry
  | link target hdot hdotDot hentry =>
      rw [if_neg hdot, if_neg hdotDot]
      refine readLink_follows_tree.bind fun a view ha => ?_
      obtain ⟨rfl, rfl⟩ := ha
      rw [Tree.target_of_link hdot hdotDot hentry]
      exact followLink_follows_step hspelled hdot hdotDot hentry
  | missing hdot hdotDot hentry =>
      rw [if_neg hdot, if_neg hdotDot]
      refine readLink_follows_tree.bind fun a view ha => ?_
      obtain ⟨rfl, rfl⟩ := ha
      rw [Tree.target_of_missing hdot hdotDot hentry]
      exact afterUnreadable_follows_step hspelled hdot hdotDot hentry

end

-- ================================================================== loop

/-- The loop is the course. -/
theorem takeNames_follows_course (wf : t.WellFormed) :
    ∀ (budget : Nat) (v : Visit) (view : View), Standing t v view →
      (takeNames mode maxLinkSize budget v).Follows (treeProtocol t w)
        (fun a view => a.1 = t.course mode maxLinkSize budget v.pending v.trail
          ∧ ∃ d, Holding a.2 d view) view := by
  intro budget
  induction budget with
  | zero =>
      intro ⟨pending, trail, cursor⟩ view ⟨d, hcursor, hd⟩
      cases pending with
      | nil => exact ⟨rfl, d, hcursor⟩
      | cons name pending => exact ⟨rfl, d, hcursor⟩
  | succ budget ih =>
      intro ⟨pending, trail, cursor⟩ view ⟨d, hcursor, hd⟩
      cases pending with
      | nil => exact ⟨rfl, d, hcursor⟩
      | cons name pending =>
          obtain ⟨h, rfl, rfl⟩ := hcursor
          refine (takeName_follows_step (hd (List.cons_ne_nil _ _)) wf).bind
            fun progress view hprogress => ?_
          show Dialogue.Follows _ (fun (a : LoopAnswer) view =>
            a.1 = t.course mode maxLinkSize (budget + 1) (name :: pending) trail
              ∧ ∃ d, Holding a.2 d view) _ _
          rw [Tree.course]
          cases hstep : t.step mode maxLinkSize name pending trail with
          | onward pending' trail' =>
              rw [hstep] at hprogress
              cases progress with
              | onward v =>
                  obtain ⟨rfl, rfl, hv⟩ := hprogress
                  exact ih v view hv
              | arrived trail c => exact hprogress.elim
              | stuck failure c => exact hprogress.elim
          | arrived trail' =>
              rw [hstep] at hprogress
              cases progress with
              | onward v => exact hprogress.elim
              | arrived trail c =>
                  obtain ⟨rfl, hc⟩ := hprogress
                  exact ⟨rfl, hc⟩
              | stuck failure c => exact hprogress.elim
          | stuck failure' =>
              rw [hstep] at hprogress
              cases progress with
              | onward v => exact hprogress.elim
              | arrived trail c => exact hprogress.elim
              | stuck failure c =>
                  obtain ⟨rfl, hc⟩ := hprogress
                  exact ⟨rfl, hc⟩

-- ============================================================ whole paths

/-- The names with which a resolution of the path starts. -/
def queueOf (workingDirectory path : Text) : List Name :=
  startingNames path (if isAbsolute path then [] else workingDirectory)

theorem isName_of_mem_queueOf {workingDirectory path : Text} {n : Name}
    (h : n ∈ queueOf workingDirectory path) : IsName n :=
  isName_of_mem_startingNames h

/-- What a resolution of a path in a tree comes to. -/
def Tree.canonical (t : Tree) (workingDirectory : Text) (limits : Limits) (mode : ExistenceMode)
    (path : Text) : Except Failure Text :=
  ((t.course mode limits.maxLinkSize limits.loopBudget (queueOf workingDirectory path) []).map
    trailPath).mapError (·.reportedAt path)

theorem visitNames_follows_course (wf : t.WellFormed) (limits : Limits) (pending : List Name) :
    (visitNames mode limits pending).Follows (treeProtocol t w)
      (fun a view => a
          = (t.course mode limits.maxLinkSize limits.loopBudget pending []).map trailPath
        ∧ view = .nothing) .nothing := by
  unfold visitNames
  refine enter_follows_tree.bind fun a view ha => ?_
  obtain ⟨entered, cursor⟩ := a
  obtain ⟨rfl, hcursor⟩ := ha
  have hstanding : Standing t ⟨pending, [], cursor⟩ view := ⟨Tree.root, hcursor, fun _ => rfl⟩
  refine (takeNames_follows_course wf _ _ _ hstanding).bind fun a view ha => ?_
  obtain ⟨answer, cursor⟩ := a
  obtain ⟨rfl, d, hcursor⟩ := ha
  refine (close_follows_tree hcursor).bind fun b view hb => ?_
  obtain ⟨outcome, cursor⟩ := b
  obtain ⟨rfl, rfl⟩ := hb
  exact ⟨rfl, rfl⟩

/-- Where a resolution starts is known before it starts. -/
theorem startingDirectory_follows_tree (path : Text) :
    (startingDirectory path).Follows (treeProtocol t w)
      (fun a view => a = .ok (if isAbsolute path then [] else w) ∧ view = .nothing) .nothing := by
  unfold startingDirectory
  split
  · exact ⟨rfl, rfl⟩
  · refine ⟨trivial, fun reply hreply => ?_⟩
    have hok : reply = .ok w := hreply
    rw [hok]
    exact ⟨rfl, rfl⟩

/-- A resolution comes to what the tree determines, and owns nothing
afterwards. -/
theorem canonicalPathShown_follows_tree (wf : t.WellFormed) (shown : Text) (limits : Limits)
    (mode : ExistenceMode) (path : Text) :
    (canonicalPathShown shown limits mode path).Follows (treeProtocol t w)
      (fun a view => a = t.canonical w limits mode path ∧ view = .nothing) .nothing := by
  unfold canonicalPathShown
  refine (startingDirectory_follows_tree path).bind fun a view ha => ?_
  obtain ⟨rfl, rfl⟩ := ha
  refine (visitNames_follows_course wf limits _).bind fun answer view hanswer => ?_
  obtain ⟨rfl, rfl⟩ := hanswer
  exact ⟨rfl, rfl⟩

namespace Store

variable {s : Store}

/-- A resolution on a store comes to what its tree determines. -/
theorem canonicalPathShown_value (hs : s.WellFormed) (shown : Text) (limits : Limits)
    (mode : ExistenceMode) (path : Text) :
    ((canonicalPathShown shown limits mode path).run Store.answer s).value
      = s.tree.canonical s.workingDirectory limits mode path := by
  obtain ⟨view, ⟨hvalue, -⟩, -⟩ :=
    (canonicalPathShown_follows_tree hs.tree shown limits mode path).run
      (honours_tree s.tree s.workingDirectory) (shows_nothing hs.handles)
  exact hvalue

/-- What a resolution of a text on a store ends with. -/
def resolved (s : Store) (limits : Limits) (env : Environment) (path : Text) (exact : Value) :
    Except Failure PathArgument :=
  ((resolve limits env (.string path) exact).run Store.answer s).value

theorem resolved_eq (hs : s.WellFormed) {env : Environment} {exact : Value}
    {mode : ExistenceMode} (hmode : exact.mode? env = .ok mode) (limits : Limits) (path : Text) :
    s.resolved limits env path exact
      = (s.tree.canonical s.workingDirectory limits mode path).map .text := by
  unfold resolved
  rw [resolve_string_value hmode, canonicalPathShown_value hs]

/-- The path that a resolution gives is the one that its course ends with. -/
theorem resolved_eq_ok_iff (hs : s.WellFormed) {env : Environment} {exact : Value}
    {mode : ExistenceMode} (hmode : exact.mode? env = .ok mode) {limits : Limits}
    {path canonical : Text} :
    s.resolved limits env path exact = .ok (.text canonical)
      ↔ ∃ trail, s.tree.course mode limits.maxLinkSize limits.loopBudget
            (queueOf s.workingDirectory path) [] = .ok trail ∧ canonical = trailPath trail := by
  rw [resolved_eq hs hmode]
  unfold Tree.canonical
  cases s.tree.course mode limits.maxLinkSize limits.loopBudget
    (queueOf s.workingDirectory path) [] with
  | error failure =>
      constructor
      · intro h
        cases h
      · intro hends
        obtain ⟨trail, h, -⟩ := hends
        cases h
  | ok trail =>
      constructor
      · intro h
        injection h with h
        injection h with h
        exact ⟨trail, rfl, h.symm⟩
      · intro hends
        obtain ⟨trail', h, rfl⟩ := hends
        injection h with h
        rw [h]
        rfl

/-- The failure that a resolution gives is the one that its course ends with, as
it is reported for the path. -/
theorem resolved_eq_error_iff (hs : s.WellFormed) {env : Environment} {exact : Value}
    {mode : ExistenceMode} (hmode : exact.mode? env = .ok mode) {limits : Limits} {path : Text}
    {failure : Failure} :
    s.resolved limits env path exact = .error failure
      ↔ ∃ failure', s.tree.course mode limits.maxLinkSize limits.loopBudget
            (queueOf s.workingDirectory path) [] = .error failure'
          ∧ failure = failure'.reportedAt path := by
  rw [resolved_eq hs hmode]
  unfold Tree.canonical
  cases s.tree.course mode limits.maxLinkSize limits.loopBudget
    (queueOf s.workingDirectory path) [] with
  | ok trail =>
      constructor
      · intro h
        cases h
      · intro hends
        obtain ⟨failure', h, -⟩ := hends
        cases h
  | error failure' =>
      constructor
      · intro h
        injection h with h
        exact ⟨failure', rfl, h.symm⟩
      · intro hends
        obtain ⟨failure'', h, rfl⟩ := hends
        injection h with h
        rw [h]
        rfl

end Store

end PathResolution
