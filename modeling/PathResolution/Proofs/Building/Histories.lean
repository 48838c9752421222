/-
What holds of a tree whatever was done with its store.

A history is any sequence of operations: calls of builders, a new working
directory, single questions, and whole resolutions, which are many questions.
None of them leads out of the stores that come about (`Reachable.performAll`),
so what holds of a store is shown once for each way that a store comes about,
and holds after every history.

The directories of a tree are one hierarchy then (`Tree.IsHierarchy`), told in
terms of what directories list. The shape of a tree (`Tree.WellFormed`) says so
in terms of look-ups; no name is listed twice, so the two are the same. Going up
takes back the names that lead to a directory, and so ends at the root. Handles
stand for directories that plain names lead to: nothing else is ever opened,
because a walk comes to nothing else (Visible.lean).
-/
import Mathlib.Logic.Function.Iterate
import PathResolution.Proofs.Reachable
import PathResolution.Proofs.Tree.Entries
import PathResolution.Proofs.Tree.Visible
import PathResolution.Resolution

namespace PathResolution

-- ============================================================= hierarchy

namespace Tree

variable {t t' : Tree} {d c : DirId} {name : Name} {node : Node}

/-- Below the root, directories list each other in one way, and parents say
which. -/
structure IsHierarchy (t : Tree) : Prop where
  parent_root : t.parent root = root
  /-- A directory but the root is listed once, by its parent. -/
  lists_iff : ∀ c, t.Has c → c ≠ root → ∃ name, ∀ d name',
    t.Lists d name' (.directory c) ↔ d = t.parent c ∧ name' = name
  has_of_lists : ∀ d name c, t.Lists d name (.directory c) → t.Has d ∧ t.Has c ∧ c ≠ root
  root_above : ∀ d, t.Has d → ∃ steps, t.parent^[steps] d = root
  namesDistinct : t.NamesDistinct
  isName_of_lists : ∀ d name node, t.Lists d name node → name ≠ [] ∧ separator ∉ name

/-- Going up takes back the names of a trail. -/
theorem WellFormed.parent_iterate_of_spelled (wf : t.WellFormed) {trail : List Name}
    (h : t.spelled trail = some (.directory d)) : t.parent^[trail.length] d = root := by
  induction trail generalizing d with
  | nil =>
      injection h with h
      injection h with h
      exact h.symm
  | cons name trail ih =>
      obtain ⟨holder, htrail, hentry⟩ := directory_of_spelled_cons h
      rw [List.length_cons, Function.iterate_succ_apply, wf.parent_of_entry holder name d hentry]
      exact ih htrail

theorem Lists.has (h : t.Lists d name node) : t.Has d := by
  obtain ⟨directory, hget, -⟩ := h
  obtain ⟨hd, -⟩ := List.getElem?_eq_some_iff.mp hget
  exact hd

theorem WellFormed.isHierarchy (wf : t.WellFormed) (hdistinct : t.NamesDistinct) :
    t.IsHierarchy where
  parent_root := wf.parent_root
  lists_iff := by
    intro c hc hroot
    obtain ⟨name, hname⟩ := wf.entry_of_ne_root c hc hroot
    refine ⟨name, fun d name' => ?_⟩
    rw [← hdistinct.entry?_eq_some_iff]
    constructor
    · intro hentry
      obtain rfl : t.parent c = d := wf.parent_of_entry d name' c hentry
      exact ⟨rfl, wf.name_unique _ name' name c hentry hname⟩
    · rintro ⟨rfl, rfl⟩
      exact hname
  has_of_lists := by
    intro d name c hlists
    exact ⟨hlists.has, wf.has_of_entry d name c (hdistinct.entry?_eq_some_iff.mpr hlists)⟩
  root_above := by
    intro d hd
    obtain ⟨trail, htrail⟩ := wf.exists_spelled hd
    exact ⟨trail.length, wf.parent_iterate_of_spelled htrail⟩
  namesDistinct := hdistinct
  isName_of_lists := by
    intro d name node hlists
    have hname : IsName name :=
      wf.isName_of_entry d name node (hdistinct.entry?_eq_some_iff.mpr hlists)
    exact ⟨hname.ne_nil, hname.separator_not_mem⟩

-- =============================================================== growing

theorem Grows.namesDistinct (h : t.Grows t') (ht : t.NamesDistinct) : t'.NamesDistinct := by
  induction h with
  | same => exact ht
  | entry _ _ hnew _ _ ih => exact ih.addEntry hnew
  | directory _ _ hnew _ ih => exact ih.addDirectory hnew

end Tree

-- =============================================================== handles

namespace Store

variable {s : Store} {d : DirId}

/-- Every open handle stands for a directory that can be found. -/
def HandlesStand (s : Store) : Prop := ∀ e ∈ s.handles.opened, s.tree.Visible (.directory e.2)

theorem HandlesStand.openDirectory (h : s.HandlesStand) (hd : s.tree.Visible (.directory d)) :
    (s.openDirectory d).2.HandlesStand := by
  intro e he
  rcases List.mem_append.mp he with he | he
  · exact h e he
  · rw [List.mem_singleton.mp he]
    exact hd

theorem HandlesStand.visible (h : s.HandlesStand) {base : Handle}
    (hd : s.handles.directory? base = some d) : s.tree.Visible (.directory d) := by
  obtain ⟨before, after, hopened, -⟩ := List.lookup_eq_some_iff.mp hd
  refine h (base, d) ?_
  rw [hopened]
  exact List.mem_append_right _ List.mem_cons_self

/-- A question opens nothing but what can be found. -/
theorem HandlesStand.answer (h : s.HandlesStand) (wf : s.WellFormed) (question : Primitive) :
    (answer question s).2.HandlesStand := by
  cases question with
  | openRoot => exact h.openDirectory Tree.visible_root
  | openRelative base name =>
      simp only [Store.answer, openRelative]
      split
      · exact h
      · next d hd =>
        split
        · exact h
        · next found hfound =>
          exact h.openDirectory (wf.tree.visible_of_walk (h.visible hd) hfound)
        · exact h
  | readLink base name => exact h
  | close handle =>
      simp only [Store.answer, closeHandle]
      split
      · exact h
      · next closed hclosed =>
        obtain ⟨-, rfl⟩ := HandleTable.close?_eq_some_iff.mp hclosed
        exact fun e he => h e (List.mem_of_mem_filter he)
  | workingDirectory => exact h

theorem HandlesStand.build (h : s.HandlesStand) (wf : s.WellFormed) (call : Building) :
    (s.build call).2.HandlesStand := by
  intro e he
  rw [(build_frame s call).1] at he
  exact (wf.build_grows call).visible (h e he)

theorem Reachable.handlesStand (h : s.Reachable) : s.HandlesStand := by
  induction h with
  | empty workingDirectory => exact nofun
  | makeDirectory path parents mayExist hs ih =>
      exact ih.build hs.wellFormed (.makeDirectory path parents mayExist)
  | makeFile path hs ih => exact ih.build hs.wellFormed (.makeFile path)
  | makeLink target path hs ih => exact ih.build hs.wellFormed (.makeLink target path)
  | changeDirectory path _ ih => exact ih
  | answer question hs ih => exact ih.answer hs.wellFormed question

theorem Reachable.isHierarchy (h : s.Reachable) : s.tree.IsHierarchy :=
  h.wellFormed.tree.isHierarchy (h.grows.namesDistinct Tree.empty_namesDistinct)

end Store

-- ============================================================= histories

/-- What keeps to every answer keeps to every conversation. -/
theorem Dialogue.run_keeps {α σ : Type} {answer : Answering σ} {P : σ → Prop}
    (hanswer : ∀ question state, P state → P (answer question state).2) (d : Dialogue α)
    {state : σ} (h : P state) : P (d.run answer state).state := by
  induction d generalizing state with
  | done value => exact h
  | tell entry rest ih =>
      rw [run_tell]
      exact ih h
  | ask question next ih =>
      rw [run_ask]
      exact ih _ (hanswer question state h)

namespace Store

/-- All that can be done with a store. -/
inductive Operation where
  | build (call : Building)
  | changeDirectory (path : Text)
  | ask (question : Primitive)
  | resolve (limits : Limits) (env : Environment) (path exact : Value)
  | resolveOrNone (limits : Limits) (env : Environment) (path exact : Value)

/-- The store after an operation, whether it succeeds or not. -/
def perform (s : Store) : Operation → Store
  | .build call => (s.build call).2
  | .changeDirectory path => { s with workingDirectory := path }
  | .ask question => (answer question s).2
  | .resolve limits env path exact =>
    ((PathResolution.resolve limits env path exact).run answer s).state
  | .resolveOrNone limits env path exact =>
    ((PathResolution.resolveOrNone limits env path exact).run answer s).state

/-- The store after a history. -/
def performAll (s : Store) (operations : List Operation) : Store := operations.foldl perform s

variable {s : Store}

/-- A conversation does not change the tree. -/
theorem run_tree {α : Type} (d : Dialogue α) (s : Store) :
    (d.run answer s).state.tree = s.tree :=
  Dialogue.run_keeps (fun question state h => (answer_frame question state).1.trans h) d rfl

theorem Reachable.perform (h : s.Reachable) (operation : Operation) :
    (s.perform operation).Reachable := by
  have hanswer : ∀ question (s : Store), s.Reachable → (Store.answer question s).2.Reachable :=
    fun question _ hs => hs.answer question
  cases operation with
  | build call => exact h.build call
  | changeDirectory path => exact h.changeDirectory path
  | ask question => exact h.answer question
  | resolve limits env path exact => exact Dialogue.run_keeps hanswer _ h
  | resolveOrNone limits env path exact => exact Dialogue.run_keeps hanswer _ h

theorem Reachable.performAll (h : s.Reachable) (operations : List Operation) :
    (s.performAll operations).Reachable := by
  induction operations generalizing s with
  | nil => exact h
  | cons operation operations ih => exact ih (h.perform operation)

end Store

/-- After every history, the directories of the tree are one hierarchy, and
every open handle stands for one of them. -/
theorem tree_keeps_its_shape (workingDirectory : Text) (operations : List Store.Operation) :
    let s := (Store.empty workingDirectory).performAll operations
    s.tree.IsHierarchy ∧ ∀ e ∈ s.handles.opened, s.tree.Has e.2 := by
  intro s
  have hs : s.Reachable := (Store.Reachable.empty workingDirectory).performAll operations
  exact ⟨hs.isHierarchy, fun e he => hs.wellFormed.tree.has_of_visible (hs.handlesStand e he)⟩

end PathResolution
