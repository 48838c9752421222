/-
What a call of a builder does.

Calls are of two sorts. Some make missing directories. The others make one thing,
and are one function of what they make, of what they put up with in its place, and
of how they refuse what they do not (`Building.built`).

A call that fails does nothing: a builder that looks before it makes one thing
has nothing to undo, and the one that makes missing directories fails before it
has made any (Making.lean).

A call that succeeds does what its path says and nothing else. This can be told
from what is found under lists of names, without a tree: `Lookup.Accepts` says
which calls succeed, and `Lookup.after` what is found after one that did. So a
store that was built by calls with plain names is, for those who look names up,
the result of these two, call by call (`Store.literal_buildAll`).
-/
import PathResolution.Proofs.Reachable
import PathResolution.Proofs.Tree.Making

namespace PathResolution

open Store (Building)

-- ================================================================= calls

/-- The path that a call is about. -/
def Store.Building.path : Building → Text
  | .makeDirectory path _ _ => path
  | .makeFile path => path
  | .makeLink _ path => path

/-- The calls that make missing directories. All others make one thing. -/
def Store.Building.makesParents : Building → Bool
  | .makeDirectory _ parents _ => parents
  | .makeFile _ => false
  | .makeLink _ _ => false

/-- What a call makes. -/
def Store.Building.kind : Building → Kind
  | .makeDirectory _ _ _ => .directory
  | .makeFile _ => .file
  | .makeLink target _ => .link target

/-- What a call that makes one thing puts up with in its place. -/
def Store.Building.tolerates : Building → Kind → Bool
  | .makeDirectory _ _ mayExist, there => mayExist && there == .directory
  | .makeFile _, there => there != .directory
  | .makeLink _ _, _ => false

/-- The error for what it does not put up with. -/
def Store.Building.refusal : Building → Errno
  | .makeDirectory _ _ _ => Errno.entryExists
  | .makeFile _ => Errno.isADirectory
  | .makeLink _ _ => Errno.entryExists

/-- What a call does to the tree of a store. -/
def Store.Building.built (t : Tree) (call : Building) : Tree.Built :=
  if call.makesParents then t.makeDirectories call.path
  else t.makeOne call.path call.kind call.tolerates call.refusal

theorem Store.build_eq (s : Store) (call : Building) :
    s.build call = s.withTree (call.built s.tree) := by
  cases call with
  | makeDirectory path parents mayExist =>
      cases parents with
      | true => rfl
      | false => exact congrArg s.withTree (s.tree.makeDirectory_eq path mayExist)
  | makeFile path => exact congrArg s.withTree (s.tree.makeFile_eq path)
  | makeLink target path => exact congrArg s.withTree (s.tree.makeLink_eq target path)

variable {s : Store} {t : Tree} {call : Building} {fault : Fault}

-- ======================================================== failing calls

/-- A builder that fails leaves the tree as it was. -/
theorem Store.Building.built_of_error (h : (call.built t).1 = .error fault) :
    (call.built t).2 = t := by
  unfold built at h ⊢
  split
  · next hparents =>
    rw [if_pos hparents] at h
    exact Tree.makeDirectoriesFrom_of_error h
  · next hone =>
    rw [if_neg hone] at h
    exact Tree.makeOne_of_error h

/-- A call that fails leaves the whole store as it was: the tree, the handles
and the working directory. -/
theorem failed_call_changes_nothing (s : Store) (call : Building) (fault : Fault)
    (h : (s.build call).1 = .error fault) : (s.build call).2 = s := by
  rw [Store.build_eq] at h ⊢
  have htree : (call.built s.tree).2 = s.tree := Store.Building.built_of_error h
  show { s with tree := (call.built s.tree).2 } = s
  rw [htree]

/-- A link is in the way, behind a directory. -/
theorem failed_call_changes_nothing_at_link :
    let s : Store := (Store.sample.build (.makeLink (text "../d") (text "/d/l"))).2
    let call : Building := .makeDirectory (text "/d//l/x/y") true true
    (s.build call).1 = .error (Tree.faultAt Errno.notADirectory (text "/d//l/x/y"))
      ∧ (s.build call).2 = s := by
  intro s call
  have hfails : (s.build call).1
      = .error (Tree.faultAt Errno.notADirectory (text "/d//l/x/y")) := rfl
  exact ⟨hfails, failed_call_changes_nothing s call _ hfails⟩

-- ==================================================== what calls ask for

namespace Lookup

variable (found : Lookup)

/-- The calls that succeed where this is found. -/
def Accepts : Building → Prop
  | .makeDirectory path true _ =>
    ∀ ns, ns <+: names path → found ns = none ∨ found ns = some .directory
  | .makeDirectory path false mayExist =>
    found.HasPlace path
      ∧ (found (names path) = none ∨ found (names path) = some .directory ∧ mayExist = true)
  | .makeFile path => found.HasPlace path ∧ found (names path) ≠ some .directory
  | .makeLink _ path => found.HasPlace path ∧ found (names path) = none

/-- What is found after a call that succeeded. -/
def after : Building → Lookup
  | .makeDirectory path true _, ns =>
    if found ns = none ∧ ns ≠ [] ∧ ns <+: names path then some .directory else found ns
  | .makeDirectory path false _, ns =>
    if found ns = none ∧ ns = names path then some .directory else found ns
  | .makeFile path, ns => if found ns = none ∧ ns = names path then some .file else found ns
  | .makeLink target path, ns => if ns = names path then some (.link target) else found ns

instance (path : Text) : Decidable (found.HasPlace path) :=
  decidable_of_iff (names path ≠ [] ∧ ∀ ns ∈ (names path).inits, ns ≠ names path →
    found ns = some .directory) (by simp only [List.mem_inits, HasPlace])

instance : DecidablePred found.Accepts
  | .makeDirectory path true _ =>
    decidable_of_iff (∀ ns ∈ (names path).inits, found ns = none ∨ found ns = some .directory)
      (by simp only [List.mem_inits, Accepts])
  | .makeDirectory path false mayExist =>
    inferInstanceAs (Decidable (found.HasPlace path
      ∧ (found (names path) = none ∨ found (names path) = some .directory ∧ mayExist = true)))
  | .makeFile path =>
    inferInstanceAs (Decidable (found.HasPlace path ∧ found (names path) ≠ some .directory))
  | .makeLink _ path =>
    inferInstanceAs (Decidable (found.HasPlace path ∧ found (names path) = none))

/-- What is found after a call, whether it succeeded or not. -/
def step (call : Building) : Lookup := if found.Accepts call then found.after call else found

end Lookup

namespace Lookup

variable {found : Lookup} {ns : List Name}

theorem accepts_iff_of_makesParents (hcall : call.makesParents = true) :
    found.Accepts call
      ↔ ∀ ns, ns <+: names call.path → found ns = none ∨ found ns = some .directory := by
  cases call with
  | makeDirectory path parents mayExist =>
      obtain rfl : parents = true := hcall
      exact Iff.rfl
  | makeFile path => cases hcall
  | makeLink target path => cases hcall

theorem after_of_makesParents (hcall : call.makesParents = true) :
    found.after call ns = if found ns = none ∧ ns ≠ [] ∧ ns <+: names call.path
      then some .directory else found ns := by
  cases call with
  | makeDirectory path parents mayExist =>
      obtain rfl : parents = true := hcall
      rfl
  | makeFile path => cases hcall
  | makeLink target path => cases hcall

/-- A call that makes one thing needs a place for it, and nothing there that it
does not put up with. -/
theorem accepts_iff_of_one (hcall : call.makesParents = false) :
    found.Accepts call ↔ found.HasPlace call.path
      ∧ ∀ there, found (names call.path) = some there → call.tolerates there = true := by
  cases call with
  | makeDirectory path parents mayExist =>
      obtain rfl : parents = false := hcall
      refine and_congr_right fun _ => ?_
      show _ ↔ ∀ there, found (names path) = some there → _
      cases found (names path) with
      | none => simp
      | some there => cases there <;> simp [Store.Building.tolerates]
  | makeFile path =>
      refine and_congr_right fun _ => ?_
      show _ ↔ ∀ there, found (names path) = some there → _
      cases found (names path) with
      | none => simp
      | some there => cases there <;> simp [Store.Building.tolerates]
  | makeLink target path =>
      refine and_congr_right fun _ => ?_
      show _ ↔ ∀ there, found (names path) = some there → _
      cases found (names path) with
      | none => simp
      | some there => simp [Store.Building.tolerates]

theorem after_of_one (hcall : call.makesParents = false) (haccepts : found.Accepts call) :
    found.after call ns
      = if found ns = none ∧ ns = names call.path then some call.kind else found ns := by
  cases call with
  | makeDirectory path parents mayExist =>
      obtain rfl : parents = false := hcall
      rfl
  | makeFile path => rfl
  | makeLink target path =>
      -- a link is made only of a name that is free
      have hfree : found (names path) = none := haccepts.2
      rw [after]
      by_cases hns : ns = names path
      · rw [if_pos hns, if_pos ⟨hns ▸ hfree, hns⟩]
        rfl
      · rw [if_neg hns, if_neg fun hboth => hns hboth.2]

end Lookup

/-- Whether a call with plain names succeeds is told by what is found before. -/
theorem Store.Building.built_eq_ok_iff (hplain : HasPlainNames call.path) :
    (call.built t).1 = .ok () ↔ t.literal.Accepts call := by
  unfold built
  cases hcall : call.makesParents with
  | true =>
      rw [if_pos rfl, Lookup.accepts_iff_of_makesParents hcall]
      exact Tree.makeDirectories_eq_ok_iff
  | false =>
      rw [if_neg Bool.false_ne_true, Lookup.accepts_iff_of_one hcall]
      exact Tree.makeOne_eq_ok_iff hplain

/-- What is found after a call with plain names that succeeded is told by what
was found before. -/
theorem Store.Building.literal_built (wf : t.WellFormed) (hplain : HasPlainNames call.path)
    (h : (call.built t).1 = .ok ()) : (call.built t).2.literal = t.literal.after call := by
  have haccepts : t.literal.Accepts call := (built_eq_ok_iff hplain).mp h
  funext ns
  unfold built at h ⊢
  cases hcall : call.makesParents with
  | true =>
      rw [hcall, if_pos rfl] at h
      rw [if_pos rfl, Lookup.after_of_makesParents hcall]
      exact wf.literal_makeDirectories h ns
  | false =>
      rw [hcall, if_neg Bool.false_ne_true] at h
      rw [if_neg Bool.false_ne_true, Lookup.after_of_one hcall haccepts]
      exact wf.literal_makeOne hplain h ns

/-- One call. -/
theorem Store.literal_build (wf : s.WellFormed) (hplain : HasPlainNames call.path) :
    (s.build call).2.tree.literal = s.tree.literal.step call := by
  rw [build_eq, Lookup.step]
  show (call.built s.tree).2.literal = _
  cases h : (call.built s.tree).1 with
  | ok done =>
      rw [if_pos ((Building.built_eq_ok_iff hplain).mp h)]
      exact Building.literal_built wf.tree hplain h
  | error fault =>
      rw [if_neg, Building.built_of_error h]
      intro haccepts
      rw [(Building.built_eq_ok_iff hplain).mpr haccepts] at h
      cases h

/-- Any number of calls. -/
theorem Store.literal_buildAll {calls : List Building} (hs : s.Reachable)
    (hplain : ∀ call ∈ calls, HasPlainNames call.path) :
    (s.buildAll calls).tree.literal = calls.foldl Lookup.step s.tree.literal := by
  induction calls generalizing s with
  | nil => rfl
  | cons call calls ih =>
      have hcall : HasPlainNames call.path := hplain call List.mem_cons_self
      rw [List.foldl_cons, ← literal_build hs.wellFormed hcall]
      exact ih (hs.build call) fun call hcall => hplain call (List.mem_cons_of_mem _ hcall)

/-- A call with plain names succeeds exactly if what is found before accepts it,
and then changes what is found under the names that it is about, as it should,
and nothing else. So does any sequence of such calls, those that fail left
out. -/
theorem call_changes_named_path (s : Store) (hs : s.Reachable) :
    (∀ call : Building, HasPlainNames call.path →
        ((s.build call).1 = .ok () ↔ s.tree.literal.Accepts call)
          ∧ ((s.build call).1 = .ok () →
            (s.build call).2.tree.literal = s.tree.literal.after call))
      ∧ ∀ calls : List Building, (∀ call ∈ calls, HasPlainNames call.path) →
        (s.buildAll calls).tree.literal = calls.foldl Lookup.step s.tree.literal := by
  refine ⟨fun call hplain => ?_, fun calls hplain => Store.literal_buildAll hs hplain⟩
  rw [Store.build_eq]
  exact ⟨Store.Building.built_eq_ok_iff hplain,
    Store.Building.literal_built hs.wellFormed.tree hplain⟩

/-- Directories are made behind one that is there, and its file stays; a link
can be made of a name that is free, once. -/
theorem call_changes_named_path_deep :
    let call : Building := .makeDirectory (text "//d/e//g/") true false
    let after := (Store.sample.build call).2.tree
    (Store.sample.build call).1 = .ok ()
      ∧ after.literal [text "d", text "e"] = some .directory
      ∧ after.literal [text "d", text "e", text "g"] = some .directory
      ∧ after.literal [text "d", text "f"] = some .file
      ∧ after.literal [text "e"] = none := by
  intro call after
  obtain ⟨haccepts, hafter⟩ :=
    (call_changes_named_path .sample Store.sample_reachable).1 call (by decide)
  have hok : (Store.sample.build call).1 = .ok () := haccepts.mpr (by decide)
  have hliteral : after.literal = Store.sample.tree.literal.after call := hafter hok
  rw [hliteral]
  exact ⟨hok, rfl, rfl, rfl, rfl⟩

end PathResolution
