/-
A resolution on the disk that succeeds.

A disk answers by its tree, as a store in memory does, but more can go wrong
with it: names are refused or are too long, and the working directory may have
no path. A resolution that fails is of no interest here, so the protocol of a
disk expects any failure, and says of the replies that are none what the tree
makes of them (`diskProtocol`, `Disk.honours_disk`).

As long as the resolution gets on, its cursor stands where the names that it has
taken lead to, and what it ends with is a passage along the names that waited
(`takeNames_follows_disk`). Those of the working directory lead to it, so the
names of the path come to the answer from there (`canonicalPathShown_follows_disk`).
-/
import PathResolution.Proofs.Disk.Passage
import PathResolution.Proofs.Resolution.Faithful

namespace PathResolution

open Disk

-- ============================================================== protocol

/-- The conversation with a disk, by the directories of the handles. -/
def diskProtocol (t : Tree) (w : DirId) : Protocol View where
  permits _ _ := True
  expects view question reply :=
    match question, reply with
    | .openRoot, .ok h => view h = none
    | .openRelative base name, .ok h =>
      view h = none ∧ ∀ d, view base = some d → ∃ c, directoryAt t d name = .ok c
    | .readLink base name, reply => ∀ d, view base = some d → reply = targetAt t d name
    | .workingDirectory, .ok path => pathTo? t w = some path
    | _, _ => True
  note view question reply :=
    match question, reply with
    | .openRoot, .ok h => view.set h (some Tree.root)
    | .openRelative base name, .ok h =>
      view.set h ((view base).bind fun d => (directoryAt t d name).toOption)
    | .close h, _ => view.set h none
    | _, _ => view

namespace Disk

variable {s : Disk} {t : Tree} {w d : DirId} {view : View}

/-- What an asker sees of a disk: its tree, its working directory, and what the
handles of its own stand for. -/
structure Shows (s : Disk) (t : Tree) (w : DirId) (view : View) : Prop where
  tree : s.tree = t
  workingDirectory : s.workingDirectory = w
  handles : s.handles.WellFormed
  seen : ∀ h d, view h = some d → s.handles.directory? h = some d

theorem Shows.next_eq_none (hs : s.Shows t w view) : view s.handles.next = none := by
  cases h : view s.handles.next with
  | none => rfl
  | some d =>
      have hopen := hs.seen _ _ h
      rw [hs.handles.directory?_next] at hopen
      cases hopen

/-- A new handle is known to stand for its directory, or nothing is known of
it. -/
theorem Shows.openDirectory (hs : s.Shows t w view) {d : DirId} {known : Option DirId}
    (hknown : ∀ c, known = some c → c = d) :
    (s.openDirectory d).2.Shows t w (view.set s.handles.next known) := by
  refine ⟨hs.tree, hs.workingDirectory, hs.handles.add d, ?_⟩
  intro h d' hview
  by_cases heq : h = s.handles.next
  · rw [heq, View.set_self] at hview
    rw [heq, hknown d' hview]
    exact hs.handles.directory?_add_next d
  · rw [View.set_of_ne heq] at hview
    exact (HandleTable.directory?_add_of_ne d heq).trans (hs.seen h d' hview)

theorem Shows.closeHandle (hs : s.Shows t w view) (h : Handle) :
    (s.closeHandle h).2.Shows t w (view.set h none) := by
  have hseen : ∀ other d, view.set h none other = some d → other ≠ h ∧ view other = some d := by
    intro other d hview
    by_cases heq : other = h
    · rw [heq, View.set_self] at hview
      cases hview
    · rw [View.set_of_ne heq] at hview
      exact ⟨heq, hview⟩
  unfold Disk.closeHandle
  split
  · refine ⟨hs.tree, hs.workingDirectory, hs.handles, fun other d hview => ?_⟩
    exact hs.seen other d (hseen other d hview).2
  · next closed hc =>
    refine ⟨hs.tree, hs.workingDirectory, hs.handles.close hc, fun other d hview => ?_⟩
    obtain ⟨hne, hview⟩ := hseen other d hview
    exact (HandleTable.directory?_close_of_ne hc hne).trans (hs.seen other d hview)

theorem lookingUp_of_open {α : Type} {base : Handle} {name : Name} {use : DirId → Except Fault α}
    (hbase : s.handles.directory? base = some d) :
    s.lookingUp base name use = match objection? name with
      | some fault => .error fault
      | none => use d := by
  unfold lookingUp
  cases objection? name with
  | some fault => rfl
  | none => simp only [hbase]

/-- A disk answers as its tree does, whatever else is open on it. -/
theorem honours_disk (t : Tree) (w : DirId) :
    (diskProtocol t w).Honoured Disk.answer fun s view => s.Shows t w view := by
  intro s view question hs _
  cases question with
  | openRoot => exact ⟨hs.next_eq_none, hs.openDirectory fun c hc => (Option.some.inj hc).symm⟩
  | openRelative base name =>
      have hopen : ∀ d, view base = some d → ∀ c,
          s.lookingUp base name (fun d => directoryAt s.tree d name) = .ok c →
          directoryAt t d name = .ok c := by
        intro d hd c hc
        rw [lookingUp_of_open (hs.seen base d hd), hs.tree] at hc
        split at hc
        · cases hc
        · exact hc
      simp only [Disk.answer, Disk.openRelative]
      split
      · exact ⟨trivial, hs⟩
      · split
        · exact ⟨trivial, hs⟩
        · next c hc =>
          refine ⟨⟨hs.next_eq_none, fun d hd => ⟨c, hopen d hd c hc⟩⟩, ?_⟩
          refine hs.openDirectory fun c' hc' => ?_
          obtain ⟨d, hd, hc'⟩ := Option.bind_eq_some_iff.mp hc'
          rw [hopen d hd c hc] at hc'
          exact (Option.some.inj hc').symm
  | readLink base name =>
      refine ⟨fun d hd => ?_, hs⟩
      show s.lookingUp base name _ = _
      rw [lookingUp_of_open (hs.seen base d hd), hs.tree]
      rfl
  | close h =>
      refine ⟨?_, hs.closeHandle h⟩
      cases (Disk.answer (.close h) s).1 <;> trivial
  | workingDirectory =>
      refine ⟨?_, hs⟩
      simp only [Disk.answer, Disk.workingPath, hs.tree, hs.workingDirectory]
      split
      · next path hpath => exact hpath
      · trivial

/-- At the start nothing is owned. -/
theorem shows_nothing (hs : s.handles.WellFormed) :
    s.Shows s.tree s.workingDirectory View.nothing :=
  ⟨rfl, rfl, hs, nofun⟩

end Disk

-- ================================================================ moves

variable {t : Tree} {w d : DirId} {h : Handle} {name : Name} {view : View}
  {pending pending' trail trail' : List Name}

/-- The handover to a handle that was just opened. -/
theorem land_follows_disk {c : DirId} {new : Handle} {entry : LogEntry} (hne : new ≠ h) :
    (Cursor.land ⟨some h⟩ entry (.ok new)).Follows (diskProtocol t w)
      (fun a view => a.1 = .ok () → Holding a.2 c view) ((View.only h d).set new (some c)) := by
  refine ⟨trivial, fun reply _ => ?_⟩
  cases reply with
  | ok _ => exact fun _ => ⟨new, rfl, View.set_set_only hne⟩
  | error fault => exact nofun

/-- A move that succeeds leads to a directory that can be opened. -/
theorem move_follows_disk {entry : LogEntry} :
    ((⟨some h⟩ : Cursor).withHandle fun base =>
        .ask (.openRelative base name) (Cursor.land ⟨some h⟩ entry)).Follows (diskProtocol t w)
      (fun a view => a.1 = .ok () → ∃ c, directoryAt t d name = .ok c ∧ Holding a.2 c view)
      (.only h d) := by
  refine ⟨trivial, fun reply hreply => ?_⟩
  cases reply with
  | error fault => exact nofun
  | ok new =>
      obtain ⟨hnew, hopens⟩ := hreply
      obtain ⟨c, hc⟩ := hopens d View.only_self
      show Dialogue.Follows _ _ _
        ((View.only h d).set new ((View.only h d h).bind fun d => (directoryAt t d name).toOption))
      rw [View.only_self, Option.bind_some, hc]
      refine (land_follows_disk (View.ne_of_only_eq_none hnew)).mono fun a view ha hok => ?_
      exact ⟨c, rfl, ha hok⟩

theorem reset_follows_disk :
    (Cursor.reset ⟨some h⟩).Follows (diskProtocol t w)
      (fun a view => a.1 = .ok () → Holding a.2 Tree.root view) (.only h d) := by
  refine ⟨trivial, fun reply hreply => ?_⟩
  cases reply with
  | error fault => exact nofun
  | ok new => exact land_follows_disk (View.ne_of_only_eq_none hreply)

theorem readLink_follows_disk :
    (Cursor.readLink ⟨some h⟩ name).Follows (diskProtocol t w)
      (fun a view => a = (targetAt t d name, ⟨some h⟩) ∧ view = .only h d) (.only h d) := by
  refine ⟨trivial, fun reply hreply => ?_⟩
  rw [hreply d View.only_self]
  exact ⟨rfl, rfl⟩

/-- What is known of a handle that is given back is of no use any more. -/
theorem close_follows_disk (c : Cursor) :
    c.close.Follows (diskProtocol t w) (fun _ _ => True) view := by
  unfold Cursor.close Cursor.replace
  split
  · trivial
  · exact ⟨trivial, fun _ _ => trivial⟩

-- ================================================================ names

/-- What is left to do once a name is taken: names wait, the cursor is where they
start, and their passage is the rest of one along the name as well. -/
def Remains (t : Tree) (d : DirId) (name : Name) (pending trail : List Name) (c : DirId)
    (pending' trail' : List Name) : Prop :=
  (∀ n ∈ pending', IsName n) ∧ ∀ final n, Passage t pending' trail' (some c) final n →
    ∃ n, Passage t (name :: pending) trail (some d) final n

/-- Taking a name gets on. -/
def GetsOn (t : Tree) (d : DirId) (name : Name) (pending trail : List Name) :
    Progress → View → Prop
  | .onward v, view => ∃ c, (v.pending ≠ [] → Holding v.cursor c view)
      ∧ Remains t d name pending trail c v.pending v.trail
  | .arrived final _, _ => ∃ n, Passage t (name :: pending) trail (some d) final n
  | .stuck _ _, _ => True

theorem afterMove_follows_disk {path : Text} {a : Cursor.Answer Unit}
    (ha : a.1 = .ok () → ∃ c, Holding a.2 c view
      ∧ Remains t d name pending trail c pending' trail') :
    (afterMove path trail' pending' a).Follows (diskProtocol t w) (GetsOn t d name pending trail)
      view := by
  obtain ⟨outcome, cursor⟩ := a
  cases outcome with
  | error fault => trivial
  | ok _ =>
      obtain ⟨c, hcursor, hremains⟩ := ha rfl
      exact ⟨c, fun _ => hcursor, hremains⟩

section

variable (hpending : ∀ n ∈ pending, IsName n)

include hpending

theorem climb_follows_disk :
    (climb ⟨pending, trail, ⟨some h⟩⟩).Follows (diskProtocol t w)
      (GetsOn t d dotDot pending trail) (.only h d) := by
  unfold climb
  refine move_follows_disk.bind fun a view ha => afterMove_follows_disk fun hok => ?_
  obtain ⟨c, hc, hcursor⟩ := ha hok
  rw [directoryAt_dotDot] at hc
  injection hc with hc
  exact ⟨c, hcursor, hpending, fun final n hrest => ⟨n + 1, .go .climb (hc ▸ hrest)⟩⟩

/-- A file is committed only if no name waits. -/
theorem commit_follows_disk {node : Node} (hfinds : Finds t d name (some node))
    (hlink : ∀ target, node ≠ .link target) :
    (commit name ⟨pending, trail, ⟨some h⟩⟩).Follows (diskProtocol t w)
      (GetsOn t d name pending trail) (.only h d) := by
  cases pending with
  | nil =>
      refine ⟨d, fun hne => absurd rfl hne, hpending, fun final n hrest => ?_⟩
      cases hrest
      cases node with
      | directory c => exact ⟨1, .go (.enter hfinds) .nil⟩
      | file => exact ⟨1, .go (.stop hfinds (.inr rfl)) .nil⟩
      | link target => exact absurd rfl (hlink target)
  | cons next pending =>
      refine move_follows_disk.bind fun a view ha => afterMove_follows_disk fun hok => ?_
      obtain ⟨c, hc, hcursor⟩ := ha hok
      cases node with
      | directory c' =>
          rw [hfinds.directoryAt] at hc
          injection hc with hc
          rw [hc] at hfinds
          exact ⟨c, hcursor, hpending, fun final n hrest => ⟨n + 1, .go (.enter hfinds) hrest⟩⟩
      | file => exact absurd hc hfinds.directoryAt_ne_ok
      | link target => exact absurd rfl (hlink target)

theorem followLink_follows_disk {maxLinkSize : Nat} {target : Text}
    (hfinds : Finds t d name (some (.link target))) :
    (followLink maxLinkSize name target ⟨pending, trail, ⟨some h⟩⟩).Follows (diskProtocol t w)
      (GetsOn t d name pending trail) (.only h d) := by
  unfold followLink
  split
  · trivial
  · split
    · trivial
    · split
      · trivial
      · show Dialogue.Follows _ _ _ _
        have hremains : Remains t d name pending trail (Tree.walkStart d target)
            (names target ++ pending) (linkTrail target trail) :=
          ⟨List.forall_mem_append.mpr ⟨fun _ => isName_of_mem_names, hpending⟩,
            fun final n hrest => ⟨n + 1, .follow hfinds hrest⟩⟩
        split
        · next habsolute =>
          rw [linkTrail, if_pos habsolute, Tree.walkStart, if_pos habsolute] at hremains
          refine reset_follows_disk.bind fun a view ha => afterMove_follows_disk fun hok => ?_
          exact ⟨Tree.root, ha hok, hremains⟩
        · next hrelative =>
          rw [linkTrail, if_neg hrelative, Tree.walkStart, if_neg hrelative] at hremains
          exact ⟨d, fun _ => ⟨h, rfl, rfl⟩, hremains⟩

omit hpending

/-- What can go wrong with a name that cannot be asked about is not put up
with. -/
theorem afterUnreadable_follows_unaskable {mode : ExistenceMode} {fault : Fault}
    (hfault : fault.report? = none ∨ fault.report? = some (some Errno.nameTooLong)) :
    (afterUnreadable mode name ⟨pending, trail, ⟨some h⟩⟩ fault).Follows (diskProtocol t w)
      (GetsOn t d name pending trail) (.only h d) := by
  unfold afterUnreadable
  rcases hfault with hreport | hreport
  · rw [hreport]
    trivial
  · rw [hreport]
    have hcode : some Errno.nameTooLong ≠ some Errno.invalidArgument := by decide
    have hmissing : some Errno.nameTooLong ≠ some Errno.noEntry := by decide
    simp only [if_neg hcode, if_neg fun h : mode = .missingOk ∧ _ ∧ _ => hmissing h.2.2]
    trivial

/-- A missing name is kept only if no other name waits. -/
theorem afterUnreadable_follows_missing {mode : ExistenceMode} (hfinds : Finds t d name none) :
    (afterUnreadable mode name ⟨pending, trail, ⟨some h⟩⟩ (faultAt Errno.noEntry name)).Follows
      (diskProtocol t w) (GetsOn t d name pending trail) (.only h d) := by
  have hcode : some Errno.noEntry ≠ some Errno.invalidArgument := by decide
  have hreport : (faultAt Errno.noEntry name).report? = some (some Errno.noEntry) := rfl
  simp only [afterUnreadable, hreport, if_neg hcode]
  split
  · next hlast =>
    have hpending : pending = [] := List.isEmpty_iff.mp hlast.2.1
    rw [hpending]
    exact ⟨1, .go (.stop hfinds (.inl rfl)) .nil⟩
  · trivial

include hpending

/-- Taking a name gets on, if it does not fail. -/
theorem takeName_follows_disk {mode : ExistenceMode} {maxLinkSize : Nat} (hname : IsName name) :
    (takeName mode maxLinkSize name ⟨pending, trail, ⟨some h⟩⟩).Follows (diskProtocol t w)
      (GetsOn t d name pending trail) (.only h d) := by
  unfold takeName
  split
  · next hdot =>
    rw [hdot]
    exact ⟨d, fun _ => ⟨h, rfl, rfl⟩, hpending, fun final n hrest => ⟨n + 1, .go .stay hrest⟩⟩
  · next hdot =>
    split
    · next hdotDot =>
      rw [hdotDot]
      exact climb_follows_disk hpending
    · next hdotDot =>
      refine readLink_follows_disk.bind fun a view ha => ?_
      obtain ⟨rfl, rfl⟩ := ha
      rcases targetAt_cases t d ⟨hname, hdot, hdotDot⟩ with
        ⟨fault, hfault, hreport⟩ | ⟨found, hfinds, htarget⟩
      · rw [hfault]
        exact afterUnreadable_follows_unaskable hreport
      · rw [htarget]
        cases found with
        | none => exact afterUnreadable_follows_missing hfinds
        | some node =>
            cases node with
            | directory c => exact commit_follows_disk hpending hfinds nofun
            | file => exact commit_follows_disk hpending hfinds nofun
            | link target => exact followLink_follows_disk hpending hfinds

end

-- ================================================================== loop

/-- The loop ends with a passage along the names that wait. -/
theorem takeNames_follows_disk {mode : ExistenceMode} {maxLinkSize : Nat} :
    ∀ (budget : Nat) (v : Visit) (view : View) (d : DirId), (∀ n ∈ v.pending, IsName n) →
      (v.pending ≠ [] → Holding v.cursor d view) →
      (takeNames mode maxLinkSize budget v).Follows (diskProtocol t w)
        (fun a _ => ∀ final, a.1 = .ok final →
          ∃ n, Passage t v.pending v.trail (some d) final n) view := by
  have hend : ∀ (trail : List Name) (cursor : Cursor) (view : View) (d : DirId),
      (Dialogue.done (.ok trail, cursor) : Dialogue LoopAnswer).Follows (diskProtocol t w)
        (fun a _ => ∀ final, a.1 = .ok final → ∃ n, Passage t [] trail (some d) final n) view := by
    intro trail cursor view d final h
    injection h with h
    exact h ▸ ⟨0, .nil⟩
  intro budget
  induction budget with
  | zero =>
      intro ⟨pending, trail, cursor⟩ view d _ _
      cases pending with
      | nil => exact hend trail cursor view d
      | cons name pending => exact nofun
  | succ budget ih =>
      intro ⟨pending, trail, cursor⟩ view d hnames hcursor
      cases pending with
      | nil => exact hend trail cursor view d
      | cons name pending =>
          obtain ⟨h, rfl, rfl⟩ := hcursor (List.cons_ne_nil _ _)
          obtain ⟨hname, hpending⟩ := List.forall_mem_cons.mp hnames
          refine (takeName_follows_disk hpending hname).bind fun progress view hprogress => ?_
          cases progress with
          | onward v =>
              obtain ⟨c, hcursor, hpending', hpassage⟩ := hprogress
              refine (ih v view c hpending' hcursor).mono fun a _ ha final hfinal => ?_
              obtain ⟨n, hrest⟩ := ha final hfinal
              exact hpassage final n hrest
          | arrived trail cursor =>
              intro final hfinal
              injection hfinal with hfinal
              exact hfinal ▸ hprogress
          | stuck failure cursor => exact nofun

-- ============================================================ whole paths

theorem visitNames_follows_disk {mode : ExistenceMode} (limits : Limits)
    (hpending : ∀ n ∈ pending, IsName n) :
    (visitNames mode limits pending).Follows (diskProtocol t w)
      (fun a _ => ∀ canonical, a = .ok canonical → ∃ final n, canonical = trailPath final
        ∧ Passage t pending [] (some Tree.root) final n) .nothing := by
  unfold visitNames
  refine ⟨trivial, fun reply hreply => ?_⟩
  cases reply with
  | error fault => exact nofun
  | ok root =>
      have hcursor : pending ≠ [] → Holding ⟨some root⟩ Tree.root (.only root Tree.root) :=
        fun _ => ⟨root, rfl, rfl⟩
      refine (takeNames_follows_disk _ ⟨pending, [], ⟨some root⟩⟩ _ _ hpending hcursor).bind
        fun a view ha => ?_
      obtain ⟨answer, cursor⟩ := a
      refine (close_follows_disk cursor).bind fun b view _ => ?_
      obtain ⟨closed, _⟩ := b
      cases closed with
      | error fault => exact nofun
      | ok _ =>
          intro canonical h
          cases answer with
          | error failure => cases h
          | ok final =>
              injection h with h
              obtain ⟨n, hpassage⟩ := ha final rfl
              exact ⟨final, n, h.symm, hpassage⟩

/-- The names with which a resolution starts are those of the path, behind those
of the working directory if it is relative. -/
theorem startingDirectory_follows_disk {above : List Name} (hw : pathTo? t w = some (pathOf above))
    (hnames : ∀ n ∈ above, IsName n) (path : Text) :
    (startingDirectory path).Follows (diskProtocol t w)
      (fun a view => view = .nothing ∧ ∀ directory, a = .ok directory →
        startingNames path directory
          = (if isAbsolute path then [] else above) ++ names path) .nothing := by
  unfold startingDirectory
  split
  · next habsolute =>
    refine ⟨rfl, fun directory h => ?_⟩
    injection h with h
    rw [← h]
    simp [startingNames, prependPath]
  · refine ⟨trivial, fun reply hreply => ?_⟩
    cases reply with
    | error fault => exact ⟨rfl, nofun⟩
    | ok working =>
        refine ⟨rfl, fun directory h => ?_⟩
        injection h with h
        have hworking : pathOf above = directory :=
          Option.some.inj ((hw.symm.trans hreply).trans (congrArg some h))
        rw [← hworking]
        simp [startingNames, prependPath, names_pathOf hnames]

/-- The names of a path come to the path that a resolution gives, taken from
where the path starts. -/
theorem canonicalPathShown_follows_disk (hs : Sound t) {above : List Name}
    (hw : pathTo? t w = some (pathOf above)) (habove : t.node? above = some (.directory w))
    (shown : Text) (limits : Limits) (mode : ExistenceMode) (path : Text) :
    (canonicalPathShown shown limits mode path).Follows (diskProtocol t w)
      (fun a _ => ∀ canonical, a = .ok canonical → ∃ final o n, canonical = trailPath final
        ∧ Comes t (names path) (linkTrail path above.reverse) (some (Tree.walkStart w path))
            final o n) .nothing := by
  have hnames : ∀ n ∈ above, IsName n := fun n hn =>
    (hs.plain_of_nodeFrom? habove n hn).1.toIsName
  unfold canonicalPathShown
  refine (startingDirectory_follows_disk hw hnames path).bind fun a view ha => ?_
  obtain ⟨rfl, ha⟩ := ha
  cases a with
  | error failure => exact nofun
  | ok directory =>
      have hpending : ∀ n ∈ startingNames path directory, IsName n := fun _ =>
        isName_of_mem_startingNames
      refine (visitNames_follows_disk limits hpending).bind fun answer view hanswer => ?_
      intro canonical h
      cases answer with
      | error failure => cases h
      | ok found =>
          injection h with h
          obtain ⟨final, n, hfinal, hpassage⟩ := hanswer found rfl
          rw [ha directory rfl] at hpassage
          suffices hrest : ∃ n, Passage t (names path) (linkTrail path above.reverse)
              (some (Tree.walkStart w path)) final n by
            obtain ⟨n, hrest⟩ := hrest
            obtain ⟨o, m, hcomes⟩ := hrest.comes
            exact ⟨final, o, m, h.symm.trans hfinal, hcomes⟩
          unfold linkTrail Tree.walkStart
          split
          · next habsolute =>
            rw [if_pos habsolute] at hpassage
            exact ⟨n, hpassage⟩
          · next hrelative =>
            rw [if_neg hrelative] at hpassage
            have hrest := hs.passage_of_nodeFrom? above [] Tree.root n habove hpassage
            rwa [List.append_nil] at hrest

end PathResolution
