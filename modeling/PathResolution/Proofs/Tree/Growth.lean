/-
How builders grow a tree.

A builder leaves the tree as it was or with more entries, whether it succeeds or
not, and it looks before it adds (`Grows`). So nothing is ever replaced: what a
name stood for, it stands for afterwards (`Grows.entry?_eq`), and literal
look-ups that found something find the same (`Grows.node?_eq`). Growing keeps
the shape of a tree (`Grows.wellFormed`), and a link never gets a name that says
a way (`Grows.isPlainName_of_link`).

Each builder is gone through once, to see that it grows the tree; what holds of
all built trees is read off the steps of `Grows`.
-/
import PathResolution.Proofs.Tree.Shape
import PathResolution.Tree.Builders

namespace PathResolution.Tree

variable {t t' : Tree} {d c : DirId} {name : Name} {node : Node}

-- ================================================================ growth

/-- The trees that a tree grows to, by one entry at a time, each of them where
there was none. Files and links get plain names. -/
inductive Grows (t : Tree) : Tree → Prop
  | same : Grows t t
  | entry {t' : Tree} {d : DirId} {name : Name} {node : Node} : Grows t t' → t'.Has d →
      t'.entry? d name = none → IsPlainName name → (∀ c, node ≠ .directory c) →
      Grows t (t'.addEntry d name node)
  | directory {t' : Tree} {d : DirId} {name : Name} : Grows t t' → t'.Has d →
      t'.entry? d name = none → IsName name → Grows t (t'.addDirectory d name).1

theorem Grows.trans {t₁ t₂ : Tree} (h : t.Grows t₁) (h' : t₁.Grows t₂) : t.Grows t₂ := by
  induction h' with
  | same => exact h
  | entry _ hd hnew hname hnode ih => exact ih.entry hd hnew hname hnode
  | directory _ hd hnew hname ih => exact ih.directory hd hnew hname

theorem Grows.wellFormed (h : t.Grows t') (wf : t.WellFormed) : t'.WellFormed := by
  induction h with
  | same => exact wf
  | entry _ hd hnew hname hnode ih => exact ih.addEntry hd hnew hname.toIsName hnode
  | directory _ hd hnew hname ih => exact ih.addDirectory hd hnew hname

/-- A name keeps what it stands for. -/
theorem Grows.entry?_eq (h : t.Grows t') (hentry : t.entry? d name = some node) :
    t'.entry? d name = some node := by
  induction h with
  | same => exact hentry
  | entry _ hd hnew _ _ ih =>
      rw [entry?_addEntry hd hnew, if_neg, ih]
      rintro ⟨rfl, rfl⟩
      rw [ih] at hnew
      cases hnew
  | directory _ hd hnew _ ih =>
      rw [entry?_addDirectory hd hnew, if_neg, ih]
      rintro ⟨rfl, rfl⟩
      rw [ih] at hnew
      cases hnew

theorem Grows.nodeFrom?_eq (h : t.Grows t') {start : Node} {ns : List Name}
    (hnode : t.nodeFrom? start ns = some node) : t'.nodeFrom? start ns = some node := by
  induction ns generalizing start with
  | nil => exact hnode
  | cons name ns ih =>
      cases start with
      | file => cases hnode
      | link target => cases hnode
      | directory d =>
          rw [nodeFrom?, Option.bind_eq_some_iff] at hnode
          obtain ⟨child, hchild, hrest⟩ := hnode
          rw [nodeFrom?, h.entry?_eq hchild]
          exact ih hrest

/-- Names that lead somewhere lead there still. -/
theorem Grows.node?_eq (h : t.Grows t') {ns : List Name} (hnode : t.node? ns = some node) :
    t'.node? ns = some node :=
  h.nodeFrom?_eq hnode

theorem Grows.spelled_eq (h : t.Grows t') {trail : List Name}
    (hspelled : t.spelled trail = some node) : t'.spelled trail = some node :=
  h.node?_eq hspelled

/-- The links of a tree that grew from nothing have plain names. -/
theorem Grows.isPlainName_of_link (h : empty.Grows t) {target : Text}
    (hentry : t.entry? d name = some (.link target)) : IsPlainName name := by
  induction h with
  | same =>
      have hnone : empty.entry? d name = none := by
        match d with
        | 0 => rfl
        | d + 1 => exact entry?_of_not_has (by simp [Has, empty]) name
      rw [hnone] at hentry
      cases hentry
  | entry _ hd hnew hname _ ih =>
      rw [entry?_addEntry hd hnew] at hentry
      split at hentry
      · next heq => exact heq.2 ▸ hname
      · exact ih hentry
  | directory _ hd hnew _ ih =>
      rw [entry?_addDirectory hd hnew] at hentry
      split at hentry
      · cases hentry
      · exact ih hentry

-- ============================================================== builders

/-- Where the literal names of a builder lead is a directory of the tree. -/
theorem WellFormed.has_of_directoryFrom (wf : t.WellFormed) {path : Text} {ns : List Name}
    (hd : t.Has d) (h : t.directoryFrom path d ns = .ok c) : t.Has c := by
  induction ns generalizing d with
  | nil =>
      injection h with h
      exact h ▸ hd
  | cons name ns ih =>
      rw [directoryFrom] at h
      split at h
      · cases h
      · next child hchild => exact ih (wf.has_of_entry d name child hchild).1 h
      · cases h

/-- A builder that refuses `.` and `..` puts plain names into directories of the
tree. -/
theorem WellFormed.locate (wf : t.WellFormed) {path : Text} (h : t.locate path = .ok (d, name)) :
    t.Has d ∧ IsPlainName name := by
  simp only [Tree.locate] at h
  split at h
  · cases h
  · next last hlast =>
    split at h
    · cases h
    · next hrefused =>
      cases hfrom : t.directoryFrom path root (names path).dropLast with
      | error fault =>
          rw [hfrom] at h
          cases h
      | ok found =>
          rw [hfrom] at h
          injection h with h
          obtain ⟨rfl, rfl⟩ := Prod.mk.inj h
          have hmem : last ∈ names path := List.mem_of_getLast? hlast
          simp only [Bool.or_eq_true, List.contains_iff_mem, not_or] at hrefused
          refine ⟨wf.has_of_directoryFrom wf.has_root hfrom, isName_of_mem_names hmem, ?_, ?_⟩
          · rintro rfl
            exact hrefused.2 hmem
          · rintro rfl
            exact hrefused.1 hmem

theorem WellFormed.makeDirectoriesFrom_grows {path : Text} {ns : List Name}
    (hns : ∀ n ∈ ns, IsName n) (wf : t.WellFormed) (hd : t.Has d) :
    t.Grows (makeDirectoriesFrom path d ns t).2 := by
  induction ns generalizing d t with
  | nil => exact .same
  | cons name ns ih =>
      have hns' : ∀ n ∈ ns, IsName n := fun n hn => hns n (List.mem_cons_of_mem _ hn)
      rw [makeDirectoriesFrom]
      split
      · next child hchild => exact ih hns' wf (wf.has_of_entry d name child hchild).1
      · exact .same
      · next hnew =>
        have hgrown : t.Grows (t.addDirectory d name).1 :=
          Grows.same.directory hd hnew (hns name List.mem_cons_self)
        refine hgrown.trans (ih hns' (hgrown.wellFormed wf) ?_)
        show t.directories.length < (t.addDirectory d name).1.directories.length
        rw [length_addDirectory]
        exact Nat.lt_succ_self _

theorem WellFormed.makeDirectories_grows (wf : t.WellFormed) (path : Text) :
    t.Grows (t.makeDirectories path).2 :=
  wf.makeDirectoriesFrom_grows (fun _ hn => isName_of_mem_names hn) wf.has_root

theorem WellFormed.makeDirectory_grows (wf : t.WellFormed) (path : Text) (mayExist : Bool) :
    t.Grows (t.makeDirectory path mayExist).2 := by
  unfold makeDirectory
  split
  · exact .same
  · next d name hlocate =>
    obtain ⟨hd, hname⟩ := wf.locate hlocate
    split
    · next hnew => exact Grows.same.directory hd hnew hname.toIsName
    · exact .same
    · exact .same

theorem WellFormed.makeFile_grows (wf : t.WellFormed) (path : Text) :
    t.Grows (t.makeFile path).2 := by
  unfold makeFile
  split
  · exact .same
  · next d name hlocate =>
    obtain ⟨hd, hname⟩ := wf.locate hlocate
    split
    · next hnew => exact Grows.same.entry hd hnew hname nofun
    · exact .same
    · exact .same

theorem WellFormed.makeLink_grows (wf : t.WellFormed) (target path : Text) :
    t.Grows (t.makeLink target path).2 := by
  unfold makeLink
  split
  · exact .same
  · next d name hlocate =>
    obtain ⟨hd, hname⟩ := wf.locate hlocate
    split
    · next hnew => exact Grows.same.entry hd hnew hname nofun
    · exact .same

end PathResolution.Tree
