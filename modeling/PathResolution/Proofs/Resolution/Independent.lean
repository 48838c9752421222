/-
What was resolved before does not matter.

A resolution changes nothing but the handles, and handles are opaque
(Handles/Alike.lean). It remains to be seen that both filesystems answer alike
where they have the same tree and the same working directory and paired handles
stand for the same directories (`Filesystem.answersAlike`): what is answered
depends on the directory that a handle stands for, and nothing on its number. So
a resolution gives the same on a filesystem as on any that it has become by
answering questions (`Filesystem.Alike.canonicalPath`).
-/
import PathResolution.Proofs.Building.Histories
import PathResolution.Proofs.Handles.Alike
import PathResolution.Proofs.Resolution.OnDisk

namespace PathResolution

variable {held : Pairs} {h h' : Handle} {name : Name}

-- =========================================================== in memory

namespace Store

variable {s s' : Store}

/-- Two stores that differ in their handles at most, and paired handles do not
differ in what they stand for. -/
structure Alike (held : Pairs) (s s' : Store) : Prop where
  tree : s.tree = s'.tree
  workingDirectory : s.workingDirectory = s'.workingDirectory
  handles : HandleTable.Paired held s.handles s'.handles

theorem Alike.opened (hs : Alike held s s') (d : DirId) :
    Opened Alike held (.ok s.handles.next, (s.openDirectory d).2)
      (.ok s'.handles.next, (s'.openDirectory d).2) :=
  .opened _ _ _ _ ⟨hs.tree, hs.workingDirectory, hs.handles.add d⟩

theorem answersAlike : AnswersAlike answer Alike where
  openRoot hs := hs.opened Tree.root
  openRelative := by
    intro held s s' h h' name hs hmem
    obtain ⟨d, hleft, hright⟩ := hs.handles.same _ hmem
    show Opened Alike held (s.openRelative h name) (s'.openRelative h' name)
    rw [openRelative_of_open hleft, openRelative_of_open hright, hs.tree]
    cases s'.tree.opens d name with
    | error fault => exact .failed fault s s' hs
    | ok c => exact hs.opened c
  readLink := by
    intro held s s' h h' name hs hmem
    obtain ⟨d, hleft, hright⟩ := hs.handles.same _ hmem
    refine ⟨?_, hs⟩
    show s.readLink h name = s'.readLink h' name
    rw [readLink_of_open hleft, readLink_of_open hright, hs.tree]
  close := by
    intro before after s s' h h' hs
    obtain ⟨closed, closed', hclosed, hclosed', hpaired⟩ := hs.handles.close
    rw [answer_close_of_some hclosed, answer_close_of_some hclosed']
    exact ⟨rfl, hs.tree, hs.workingDirectory, hpaired⟩
  workingDirectory := fun hs => ⟨congrArg Except.ok hs.workingDirectory, hs⟩

end Store

-- ============================================================= on the disk

namespace Disk

variable {s s' : Disk}

/-- Two disks that differ in their handles at most, and paired handles do not
differ in what they stand for. -/
structure Alike (held : Pairs) (s s' : Disk) : Prop where
  tree : s.tree = s'.tree
  workingDirectory : s.workingDirectory = s'.workingDirectory
  handles : HandleTable.Paired held s.handles s'.handles

theorem Alike.opened (hs : Alike held s s') (d : DirId) :
    Opened Alike held (.ok s.handles.next, (s.openDirectory d).2)
      (.ok s'.handles.next, (s'.openDirectory d).2) :=
  .opened _ _ _ _ ⟨hs.tree, hs.workingDirectory, hs.handles.add d⟩

/-- A name is looked up through paired handles in the same way. -/
theorem Alike.lookingUp (hs : Alike held s s') (hmem : (h, h') ∈ held) {α : Type}
    (use : DirId → Except Fault α) : s.lookingUp h name use = s'.lookingUp h' name use := by
  obtain ⟨d, hleft, hright⟩ := hs.handles.same _ hmem
  rw [lookingUp_of_open hleft, lookingUp_of_open hright]

theorem answersAlike : AnswersAlike Disk.answer Alike where
  openRoot hs := hs.opened Tree.root
  openRelative := by
    intro held s s' h h' name hs hmem
    show Opened Alike held (s.openRelative h name) (s'.openRelative h' name)
    unfold Disk.openRelative
    split
    · exact .failed _ s s' hs
    · rw [hs.tree, hs.lookingUp hmem]
      cases s'.lookingUp h' name fun d => directoryAt s'.tree d name with
      | error fault => exact .failed fault s s' hs
      | ok c => exact hs.opened c
  readLink := by
    intro held s s' h h' name hs hmem
    refine ⟨?_, hs⟩
    show s.lookingUp h name _ = s'.lookingUp h' name _
    rw [hs.lookingUp hmem, hs.tree]
  close := by
    intro before after s s' h h' hs
    obtain ⟨closed, closed', hclosed, hclosed', hpaired⟩ := hs.handles.close
    show (s.closeHandle h).1 = (s'.closeHandle h').1
      ∧ Alike (before ++ after) (s.closeHandle h).2 (s'.closeHandle h').2
    unfold Disk.closeHandle
    rw [hclosed, hclosed']
    exact ⟨rfl, hs.tree, hs.workingDirectory, hpaired⟩
  workingDirectory := by
    intro held s s' hs
    refine ⟨?_, hs⟩
    show s.workingPath = s'.workingPath
    unfold workingPath
    rw [hs.tree, hs.workingDirectory]

end Disk

-- =========================================================== either way

namespace Filesystem

variable {fs fs' : Filesystem}

inductive Alike (held : Pairs) : Filesystem → Filesystem → Prop
  | memory {s s' : Store} : Store.Alike held s s' → Alike held (.memory s) (.memory s')
  | disk {s s' : Disk} : Disk.Alike held s s' → Alike held (.disk s) (.disk s')

theorem answersAlike : AnswersAlike Filesystem.answer Alike where
  openRoot := by
    intro held fs fs' hs
    cases hs with
    | memory hs => exact .map .memory (Store.answersAlike.openRoot hs)
    | disk hs => exact .map .disk (Disk.answersAlike.openRoot hs)
  openRelative := by
    intro held fs fs' h h' name hs hmem
    cases hs with
    | memory hs => exact .map .memory (Store.answersAlike.openRelative name hs hmem)
    | disk hs => exact .map .disk (Disk.answersAlike.openRelative name hs hmem)
  readLink := by
    intro held fs fs' h h' name hs hmem
    cases hs with
    | memory hs => exact (Store.answersAlike.readLink name hs hmem).imp_right .memory
    | disk hs => exact (Disk.answersAlike.readLink name hs hmem).imp_right .disk
  close := by
    intro before after fs fs' h h' hs
    cases hs with
    | memory hs => exact (Store.answersAlike.close hs).imp_right .memory
    | disk hs => exact (Disk.answersAlike.close hs).imp_right .disk
  workingDirectory := by
    intro held fs fs' hs
    cases hs with
    | memory hs => exact (Store.answersAlike.workingDirectory hs).imp_right .memory
    | disk hs => exact (Disk.answersAlike.workingDirectory hs).imp_right .disk

/-- The handles are numbered in order. -/
def NumbersHandles : Filesystem → Prop
  | .memory s => s.handles.WellFormed
  | .disk s => s.handles.WellFormed

/-- Where no handles are held, a filesystem is like itself. -/
theorem NumbersHandles.alike (hs : fs.NumbersHandles) : Alike [] fs fs := by
  cases fs with
  | memory s => exact .memory ⟨rfl, rfl, .nothing hs hs⟩
  | disk s => exact .disk ⟨rfl, rfl, .nothing hs hs⟩

/-- It is still like what it was when it has answered a question, whatever the
question. -/
theorem Alike.answer (hs : Alike [] fs fs') (question : Primitive) :
    Alike [] (Filesystem.answer question fs).2 fs' := by
  cases hs with
  | @memory s s' hs =>
      refine .memory ⟨?_, ?_, .nothing ?_ hs.handles.right⟩
      · exact (Store.answer_frame question s).1.trans hs.tree
      · exact (Store.answer_frame question s).2.trans hs.workingDirectory
      · exact Store.handleKeeping.valid_answer s question hs.handles.left
  | @disk s s' hs =>
      refine .disk ?_
      show Disk.Alike [] (Disk.answer question s).2 s'
      rcases Disk.answer_cases question s with ⟨d, hanswer⟩ | ⟨h, closed, hclosed, hanswer⟩ | hanswer
      · rw [hanswer]
        exact ⟨hs.tree, hs.workingDirectory, .nothing (hs.handles.left.add d) hs.handles.right⟩
      · rw [hanswer]
        exact ⟨hs.tree, hs.workingDirectory,
          .nothing (hs.handles.left.close hclosed) hs.handles.right⟩
      · rw [hanswer]
        exact hs

/-- A resolution gives the same on a filesystem as on one that it is like, tells
the same, and leaves it like that one. -/
theorem Alike.canonicalPath (hs : Alike [] fs fs') (limits : Limits) (mode : ExistenceMode)
    (path : Text) :
    let d := PathResolution.canonicalPath limits mode path
    (d.run Filesystem.answer fs).value = (d.run Filesystem.answer fs').value
      ∧ (d.run Filesystem.answer fs).told = (d.run Filesystem.answer fs').told
      ∧ Alike [] (d.run Filesystem.answer fs).state fs' := by
  intro d
  obtain ⟨_, hvalue, -, htold⟩ := canonicalPath_agree answersAlike limits mode path fs fs' hs
  exact ⟨hvalue, htold,
    Dialogue.run_keeps (P := (Alike [] · fs')) (fun question _ hs => hs.answer question) d hs⟩

end Filesystem

end PathResolution
