/-
What a tree answers to one who knows which directories the handles stand for.

A view keeps a directory for every handle that the asker owns. In its terms the
five questions have answers that the tree alone determines, except for the
number of a new handle, of which it is only known that the asker does not own
it yet. That is a protocol (`treeProtocol`), and a store in memory honours it,
whatever other handles are open on it (`Store.honours_tree`). The numbers of
handles say nothing else, so what follows this protocol cannot depend on them.

A resolution opens nothing but `..` and names of entries, and what these open
is read off the tree without a walk (`opens_dotDot`, `opens_of_directory`, `opens_of_file`).
-/
import PathResolution.Proofs.Protocol
import PathResolution.Proofs.Reachable

namespace PathResolution

-- ================================================================= views

/-- The directories that the handles of an asker stand for. -/
abbrev View := Handle → Option DirId

namespace View

variable {h new : Handle} {d c : DirId}

/-- No handle is owned. -/
def nothing : View := fun _ => none

def set (view : View) (h : Handle) (d : Option DirId) : View := fun other =>
  if other = h then d else view other

/-- One handle is owned. -/
def only (h : Handle) (d : DirId) : View := nothing.set h (some d)

theorem set_self (view : View) (d : Option DirId) : view.set h d h = d := if_pos rfl

theorem set_of_ne {view : View} {other : Handle} {d : Option DirId} (hne : other ≠ h) :
    view.set h d other = view other := if_neg hne

theorem only_self : only h d h = some d := set_self _ _

theorem ne_of_only_eq_none (hnew : only h d new = none) : new ≠ h := by
  intro heq
  rw [heq, only_self] at hnew
  cases hnew

/-- The handover of a move. -/
theorem set_set_only (hne : new ≠ h) : ((only h d).set new (some c)).set h none = only new c := by
  funext other
  by_cases hother : other = h
  · rw [hother, set_self, only, set_of_ne (Ne.symm hne)]
    rfl
  · rw [set_of_ne hother]
    by_cases hnew : other = new
    · rw [hnew, set_self, only_self]
    · rw [set_of_ne hnew, only, set_of_ne hother, only, set_of_ne hnew]

theorem only_set_none : (only h d).set h none = nothing := by
  funext other
  by_cases hother : other = h
  · rw [hother, set_self]
    rfl
  · rw [set_of_ne hother, only, set_of_ne hother]

end View

-- =============================================================== answers

namespace Tree

/-- The directory that a name opens in a directory. -/
def opens (t : Tree) (d : DirId) (name : Name) : Except Fault DirId :=
  match t.walk d name with
  | .error fault => .error fault
  | .ok (.directory c) => .ok c
  | .ok _ => .error (faultAt Errno.notADirectory name)

/-- The target of a link in a directory. -/
def target (t : Tree) (d : DirId) (name : Name) : Except Fault Text :=
  if name = dot ∨ name = dotDot then .error (faultAt Errno.invalidArgument name)
  else match t.entry? d name with
    | none => .error (faultAt Errno.noEntry name)
    | some (.link target) => .ok target
    | some _ => .error (faultAt Errno.invalidArgument name)

variable {t : Tree} {d : DirId} {name : Name}

/-- The walk along a single name. -/
theorem walk_of_isName (hname : IsName name) :
    ∃ atLink, t.walk d name = t.walkNames atLink name (.directory d) [name] := by
  refine ⟨fun holder target => t.walkWithin 39 holder target, ?_⟩
  show t.walkNames _ name (.directory (walkStart d name)) (names name) = _
  rw [hname.names_eq, walkStart, hname.isAbsolute_eq]
  rfl

theorem isName_dot : IsName dot := ⟨by decide, by decide⟩

theorem isName_dotDot : IsName dotDot := ⟨by decide, by decide⟩

theorem opens_dot : t.opens d dot = .ok d := by
  obtain ⟨atLink, hwalk⟩ := walk_of_isName isName_dot (t := t) (d := d)
  unfold opens
  rw [hwalk]
  rfl

theorem opens_dotDot : t.opens d dotDot = .ok (t.parent d) := by
  obtain ⟨atLink, hwalk⟩ := walk_of_isName isName_dotDot (t := t) (d := d)
  unfold opens
  rw [hwalk]
  rfl

/-- A name of an entry opens what the entry is. -/
theorem WellFormed.walk_of_entry (wf : t.WellFormed) {node : Node} (hdot : name ≠ dot)
    (hdotDot : name ≠ dotDot) (h : t.entry? d name = some node)
    (hlink : ∀ target, node ≠ .link target) : t.walk d name = .ok node := by
  obtain ⟨atLink, hwalk⟩ := walk_of_isName (wf.isName_of_entry d name node h) (t := t) (d := d)
  rw [hwalk, walkNames, if_neg hdot, if_neg hdotDot, h]
  cases node with
  | directory c => rfl
  | file => rfl
  | link target => exact absurd rfl (hlink target)

theorem WellFormed.opens_of_directory (wf : t.WellFormed) {c : DirId} (hdot : name ≠ dot)
    (hdotDot : name ≠ dotDot) (h : t.entry? d name = some (.directory c)) :
    t.opens d name = .ok c := by
  unfold opens
  rw [wf.walk_of_entry hdot hdotDot h nofun]

theorem WellFormed.opens_of_file (wf : t.WellFormed) (hdot : name ≠ dot)
    (hdotDot : name ≠ dotDot) (h : t.entry? d name = some .file) :
    t.opens d name = .error (faultAt Errno.notADirectory name) := by
  unfold opens
  rw [wf.walk_of_entry hdot hdotDot h nofun]

theorem target_of_link {target : Text} (hdot : name ≠ dot) (hdotDot : name ≠ dotDot)
    (h : t.entry? d name = some (.link target)) : t.target d name = .ok target := by
  unfold Tree.target
  rw [if_neg fun hname => hname.elim hdot hdotDot, h]

/-- An entry that is no link has no target. -/
theorem target_of_entry {node : Node} (hdot : name ≠ dot) (hdotDot : name ≠ dotDot)
    (h : t.entry? d name = some node) (hlink : ∀ target, node ≠ .link target) :
    t.target d name = .error (faultAt Errno.invalidArgument name) := by
  unfold target
  rw [if_neg fun hname => hname.elim hdot hdotDot, h]
  cases node with
  | directory c => rfl
  | file => rfl
  | link target => exact absurd rfl (hlink target)

theorem target_of_missing (hdot : name ≠ dot) (hdotDot : name ≠ dotDot)
    (h : t.entry? d name = none) : t.target d name = .error (faultAt Errno.noEntry name) := by
  unfold target
  rw [if_neg fun hname => hname.elim hdot hdotDot, h]

end Tree

-- ============================================================== protocol

/-- The conversation with a tree, by the directories of the handles. Everything
is asked through handles that are owned. -/
def treeProtocol (t : Tree) (workingDirectory : Text) : Protocol View where
  permits view question :=
    match question with
    | .openRoot => True
    | .openRelative base _ => (view base).isSome
    | .readLink base _ => (view base).isSome
    | .close h => (view h).isSome
    | .workingDirectory => True
  expects view question reply :=
    match question, reply with
    | .openRoot, reply => ∃ h, reply = .ok h ∧ view h = none
    | .openRelative base name, reply => ∀ d, view base = some d →
        (∀ fault, t.opens d name = .error fault → reply = .error fault)
          ∧ (∀ c, t.opens d name = .ok c → ∃ h, reply = .ok h ∧ view h = none)
    | .readLink base name, reply => ∀ d, view base = some d → reply = t.target d name
    | .close _, reply => reply = .ok ()
    | .workingDirectory, reply => reply = .ok workingDirectory
  note view question reply :=
    match question, reply with
    | .openRoot, .ok h => view.set h (some Tree.root)
    | .openRelative base name, .ok h =>
      view.set h ((view base).bind fun d => (t.opens d name).toOption)
    | .close h, _ => view.set h none
    | _, _ => view

-- ================================================================= store

namespace Store

/-- What an asker sees of a store: its tree, its working directory, and what
the handles of its own stand for. -/
structure Shows (s : Store) (t : Tree) (workingDirectory : Text) (view : View) : Prop where
  tree : s.tree = t
  workingDirectory : s.workingDirectory = workingDirectory
  handles : s.handles.WellFormed
  seen : ∀ h d, view h = some d → s.handles.directory? h = some d

variable {s : Store} {t : Tree} {w : Text} {view : View}

/-- A directory can be opened at any time, under a number that is not owned
yet. -/
theorem Shows.openDirectory (hs : s.Shows t w view) (d : DirId) :
    view s.handles.next = none
      ∧ (s.openDirectory d).2.Shows t w (view.set s.handles.next (some d)) := by
  have hnext : view s.handles.next = none := by
    cases h : view s.handles.next with
    | none => rfl
    | some d' =>
        have hopen := hs.seen _ _ h
        rw [hs.handles.directory?_next] at hopen
        cases hopen
  refine ⟨hnext, hs.tree, hs.workingDirectory, hs.handles.add d, ?_⟩
  intro h d' hview
  by_cases heq : h = s.handles.next
  · rw [heq, View.set_self] at hview
    injection hview with hview
    rw [heq, ← hview]
    exact hs.handles.directory?_add_next d
  · rw [View.set_of_ne heq] at hview
    exact (HandleTable.directory?_add_of_ne d heq).trans (hs.seen h d' hview)

/-- A handle that is owned can be closed. -/
theorem Shows.closeHandle (hs : s.Shows t w view) {h : Handle} (howned : (view h).isSome) :
    (s.closeHandle h).1 = .ok () ∧ (s.closeHandle h).2.Shows t w (view.set h none) := by
  obtain ⟨d, hd⟩ := Option.isSome_iff_exists.mp howned
  cases hc : s.handles.close? h with
  | none =>
      have hopen := hs.seen h d hd
      rw [HandleTable.close?_eq_none_iff.mp hc] at hopen
      cases hopen
  | some closed =>
      have hclose : s.closeHandle h = (.ok (), { s with handles := closed }) :=
        answer_close_of_some hc
      rw [hclose]
      refine ⟨rfl, hs.tree, hs.workingDirectory, hs.handles.close hc, ?_⟩
      intro other d' hview
      by_cases heq : other = h
      · rw [heq, View.set_self] at hview
        cases hview
      · rw [View.set_of_ne heq] at hview
        exact (HandleTable.directory?_close_of_ne hc heq).trans (hs.seen other d' hview)

/-- Opening through an open handle depends on the directory that it stands
for. -/
theorem openRelative_of_open {base : Handle} {d : DirId}
    (hbase : s.handles.directory? base = some d) (name : Name) :
    s.openRelative base name = match s.tree.opens d name with
      | .error fault => (.error fault, s)
      | .ok c => (.ok s.handles.next, (s.openDirectory c).2) := by
  simp only [openRelative, hbase, Tree.opens]
  cases s.tree.walk d name with
  | error fault => rfl
  | ok node => cases node <;> rfl

theorem readLink_of_open {base : Handle} {d : DirId} (hbase : s.handles.directory? base = some d)
    (name : Name) : s.readLink base name = s.tree.target d name := by
  by_cases hname : name = dot ∨ name = dotDot
  · simp only [readLink, Tree.target, hbase, if_pos hname]
  · cases hentry : s.tree.entry? d name with
    | none => simp only [readLink, Tree.target, hbase, if_neg hname, hentry]
    | some node =>
        cases node <;> simp only [readLink, Tree.target, hbase, if_neg hname, hentry]

/-- A store answers as its tree does, whatever else is open on it. -/
theorem honours_tree (t : Tree) (w : Text) :
    (treeProtocol t w).Honoured Store.answer fun s view => s.Shows t w view := by
  intro s view question hs hpermits
  cases question with
  | openRoot =>
      obtain ⟨hnext, hshows⟩ := hs.openDirectory Tree.root
      exact ⟨⟨s.handles.next, rfl, hnext⟩, hshows⟩
  | openRelative base name =>
      obtain ⟨d, hd⟩ := Option.isSome_iff_exists.mp hpermits
      have hanswer : answer (.openRelative base name) s = s.openRelative base name := rfl
      rw [hanswer, openRelative_of_open (hs.seen base d hd), hs.tree]
      cases hopens : t.opens d name with
      | error fault =>
          refine ⟨fun d' hd' => ?_, hs⟩
          obtain rfl : d = d' := Option.some.inj (hd.symm.trans hd')
          rw [hopens]
          exact ⟨fun _ h => h ▸ rfl, nofun⟩
      | ok c =>
          obtain ⟨hnext, hshows⟩ := hs.openDirectory c
          refine ⟨fun d' hd' => ?_, ?_⟩
          · obtain rfl : d = d' := Option.some.inj (hd.symm.trans hd')
            rw [hopens]
            exact ⟨nofun, fun _ _ => ⟨s.handles.next, rfl, hnext⟩⟩
          · show (s.openDirectory c).2.Shows t w
              (view.set s.handles.next ((view base).bind fun d => (t.opens d name).toOption))
            rw [hd, Option.bind_some, hopens]
            exact hshows
  | readLink base name =>
      obtain ⟨d, hd⟩ := Option.isSome_iff_exists.mp hpermits
      refine ⟨fun d' hd' => ?_, hs⟩
      have hbase := hs.seen base d' hd'
      show s.readLink base name = _
      rw [readLink_of_open hbase, hs.tree]
  | close h => exact hs.closeHandle hpermits
  | workingDirectory => exact ⟨congrArg _ hs.workingDirectory, hs⟩

/-- At the start nothing is owned. -/
theorem shows_nothing (hs : s.handles.WellFormed) :
    s.Shows s.tree s.workingDirectory View.nothing :=
  ⟨rfl, rfl, hs, nofun⟩

end Store

end PathResolution
