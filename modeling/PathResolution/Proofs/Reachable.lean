/-
The stores that can come about.

A store starts empty, and is changed by the builders of its tree, by setting
its working directory, and by the questions that it answers, in any order and
whether they succeed or not. Calls of builders are values (`Building`), so that
any sequence of them can be spoken of; each lets the tree grow and leaves the
rest as it is (`WellFormed.build_grows`). Answering a question never touches the
tree. So the tree of every store that comes about has grown from the empty one
(`Reachable.grows`) and is well-formed, and so is the handle table.
-/
import PathResolution.Proofs.Handles.Keeping
import PathResolution.Proofs.Tree.Growth

namespace PathResolution.Store

/-- The stores that come about from an empty one. -/
inductive Reachable : Store → Prop
  | empty (workingDirectory : Text) : Reachable (.empty workingDirectory)
  | makeDirectory {s : Store} (path : Text) (parents mayExist : Bool) :
      Reachable s → Reachable (s.makeDirectory path parents mayExist).2
  | makeFile {s : Store} (path : Text) : Reachable s → Reachable (s.makeFile path).2
  | makeLink {s : Store} (target path : Text) : Reachable s → Reachable (s.makeLink target path).2
  | changeDirectory {s : Store} (path : Text) :
      Reachable s → Reachable { s with workingDirectory := path }
  | answer {s : Store} (question : Primitive) :
      Reachable s → Reachable (Store.answer question s).2

/-- The tree has its shape, and the handles are numbered in order. -/
structure WellFormed (s : Store) : Prop where
  tree : s.tree.WellFormed
  handles : s.handles.WellFormed

/-- Questions change neither the tree nor the working directory. -/
theorem answer_frame (question : Primitive) (s : Store) :
    (answer question s).2.tree = s.tree
      ∧ (answer question s).2.workingDirectory = s.workingDirectory := by
  rcases answer_cases question s with ⟨d, hs⟩ | ⟨h, closed, -, hs⟩ | hs
  · rw [hs]
    exact ⟨rfl, rfl⟩
  · rw [hs]
    exact ⟨rfl, rfl⟩
  · rw [hs]
    exact ⟨rfl, rfl⟩

theorem WellFormed.answer {s : Store} (wf : s.WellFormed) (question : Primitive) :
    (answer question s).2.WellFormed := by
  refine ⟨?_, handleKeeping.valid_answer s question wf.handles⟩
  rw [(answer_frame question s).1]
  exact wf.tree

-- ============================================================= builders

/-- A call of a builder. -/
inductive Building where
  | makeDirectory (path : Text) (parents mayExist : Bool)
  | makeFile (path : Text)
  | makeLink (target path : Text)

def build (s : Store) : Building → Except Fault Unit × Store
  | .makeDirectory path parents mayExist => s.makeDirectory path parents mayExist
  | .makeFile path => s.makeFile path
  | .makeLink target path => s.makeLink target path

/-- Makes the calls one after the other, and goes on whether they succeed or
not. -/
def buildAll (s : Store) (calls : List Building) : Store :=
  calls.foldl (fun s call => (s.build call).2) s

theorem Reachable.build {s : Store} (h : s.Reachable) (call : Building) :
    (s.build call).2.Reachable := by
  cases call with
  | makeDirectory path parents mayExist => exact .makeDirectory path parents mayExist h
  | makeFile path => exact .makeFile path h
  | makeLink target path => exact .makeLink target path h

theorem build_frame (s : Store) (call : Building) :
    (s.build call).2.handles = s.handles
      ∧ (s.build call).2.workingDirectory = s.workingDirectory := by
  cases call <;> exact ⟨rfl, rfl⟩

theorem WellFormed.build_grows {s : Store} (wf : s.WellFormed) (call : Building) :
    s.tree.Grows (s.build call).2.tree := by
  cases call with
  | makeDirectory path parents mayExist =>
      cases parents with
      | true => exact wf.tree.makeDirectories_grows path
      | false => exact wf.tree.makeDirectory_grows path mayExist
  | makeFile path => exact wf.tree.makeFile_grows path
  | makeLink target path => exact wf.tree.makeLink_grows target path

theorem WellFormed.build {s : Store} (wf : s.WellFormed) (call : Building) :
    (s.build call).2.WellFormed where
  tree := (wf.build_grows call).wellFormed wf.tree
  handles := (build_frame s call).1 ▸ wf.handles

-- ===================================================== reachable stores

/-- Every store that comes about is well-formed. -/
theorem Reachable.wellFormed {s : Store} (h : s.Reachable) : s.WellFormed := by
  induction h with
  | empty workingDirectory => exact ⟨Tree.empty_wellFormed, HandleTable.empty_wellFormed⟩
  | makeDirectory path parents mayExist _ ih =>
      exact ih.build (.makeDirectory path parents mayExist)
  | makeFile path _ ih => exact ih.build (.makeFile path)
  | makeLink target path _ ih => exact ih.build (.makeLink target path)
  | changeDirectory path _ ih => exact ⟨ih.tree, ih.handles⟩
  | answer question _ ih => exact ih.answer question

/-- The tree of every store that comes about has grown from nothing. -/
theorem Reachable.grows {s : Store} (h : s.Reachable) : Tree.empty.Grows s.tree := by
  induction h with
  | empty workingDirectory => exact .same
  | makeDirectory path parents mayExist hs ih =>
      exact ih.trans (hs.wellFormed.build_grows (.makeDirectory path parents mayExist))
  | makeFile path hs ih => exact ih.trans (hs.wellFormed.build_grows (.makeFile path))
  | makeLink target path hs ih => exact ih.trans (hs.wellFormed.build_grows (.makeLink target path))
  | changeDirectory path _ ih => exact ih
  | answer question _ ih => rwa [(answer_frame question _).1]

/-- After any calls of builders, the tree has grown and the working directory is
as it was. -/
theorem Reachable.buildAll {s : Store} (h : s.Reachable) (calls : List Building) :
    (s.buildAll calls).Reachable ∧ s.tree.Grows (s.buildAll calls).tree
      ∧ (s.buildAll calls).workingDirectory = s.workingDirectory := by
  induction calls generalizing s with
  | nil => exact ⟨h, .same, rfl⟩
  | cons call calls ih =>
      obtain ⟨hreachable, hgrows, hdirectory⟩ := ih (h.build call)
      exact ⟨hreachable, (h.wellFormed.build_grows call).trans hgrows,
        hdirectory.trans (build_frame s call).2⟩

/-- A directory, a file in it, and beside it a link to it. -/
def sample : Store :=
  ((((Store.empty (text "/d")).makeDirectory (text "/d") false false).2.makeFile
    (text "/d/f")).2.makeLink (text "d") (text "/l")).2

theorem sample_reachable : sample.Reachable :=
  .makeLink _ _ (.makeFile _ (.makeDirectory _ _ _ (.empty _)))

end PathResolution.Store
