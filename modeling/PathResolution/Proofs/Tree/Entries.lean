/-
The entries of a directory as they are listed.

A look-up finds the first entry with a name. If no directory lists a name twice
(`NamesDistinct`), the first one is the only one, and what is listed is what is
found (`NamesDistinct.entry?_eq_some_iff`). New entries keep that, as long as
nothing was found under their names before.
-/
import Mathlib.Data.List.Nodup
import PathResolution.Proofs.Tree.Shape

namespace PathResolution

-- ================================================================= lists

theorem mem_of_mem_modify {α : Type} {l : List α} {i : Nat} {f : α → α} {x : α}
    (h : x ∈ l.modify i f) : x ∈ l ∨ ∃ old, l[i]? = some old ∧ x = f old := by
  obtain ⟨j, hj⟩ := List.mem_iff_getElem?.mp h
  rw [List.getElem?_modify] at hj
  obtain ⟨old, hget, hold⟩ := Option.map_eq_some_iff.mp hj
  by_cases hi : i = j
  · exact .inr ⟨old, hi ▸ hget, by simpa [hi] using hold.symm⟩
  · rw [if_neg hi] at hold
    exact .inl (hold ▸ List.mem_of_getElem? hget)

theorem lookup_of_mem {α : Type} {entries : List (Name × α)} {name : Name} {value : α}
    (h : (entries.map Prod.fst).Nodup) (hmem : (name, value) ∈ entries) :
    entries.lookup name = some value := by
  induction entries with
  | nil => cases hmem
  | cons e entries ih =>
      obtain ⟨hnew, hrest⟩ := List.nodup_cons.mp h
      rcases List.mem_cons.mp hmem with rfl | hmem
      · exact List.lookup_cons_self
      · have hne : (name == e.1) = false := by
          rw [beq_eq_false_iff_ne]
          rintro rfl
          exact hnew (List.mem_map.mpr ⟨_, hmem, rfl⟩)
        rw [List.lookup_cons, hne]
        exact ih hrest hmem

namespace Tree

variable {t : Tree} {d : DirId} {name : Name} {node : Node} {directory : Directory}

-- ================================================================= trees

/-- A directory lists this entry. -/
def Lists (t : Tree) (d : DirId) (name : Name) (node : Node) : Prop :=
  ∃ directory, t.directories[d]? = some directory ∧ (name, node) ∈ directory.entries

/-- No directory lists a name twice. -/
def NamesDistinct (t : Tree) : Prop :=
  ∀ directory ∈ t.directories, (directory.entries.map Prod.fst).Nodup

theorem empty_namesDistinct : empty.NamesDistinct := by
  intro directory hmem
  rw [List.mem_singleton.mp hmem]
  exact List.nodup_nil

/-- A name that stands for nothing is none of the names of a directory. -/
theorem not_mem_of_entry?_eq_none (hget : t.directories[d]? = some directory)
    (hnew : t.entry? d name = none) : name ∉ directory.entries.map Prod.fst := by
  rw [entry?_of_get? hget] at hnew
  intro hmem
  obtain ⟨e, he, rfl⟩ := List.mem_map.mp hmem
  have hne := List.lookup_eq_none_iff.mp hnew e he
  simp at hne

theorem NamesDistinct.addEntry (ht : t.NamesDistinct) (hnew : t.entry? d name = none) :
    (t.addEntry d name node).NamesDistinct := by
  intro directory hmem
  rcases mem_of_mem_modify hmem with hmem | ⟨old, hget, rfl⟩
  · exact ht directory hmem
  · show ((old.entries ++ [(name, node)]).map Prod.fst).Nodup
    rw [List.map_append, List.nodup_append]
    refine ⟨ht old (List.mem_of_getElem? hget), List.nodup_singleton _, ?_⟩
    intro n hn n' hn' heq
    rw [List.map_singleton, List.mem_singleton] at hn'
    rw [heq, hn'] at hn
    exact not_mem_of_entry?_eq_none hget hnew hn

theorem NamesDistinct.addDirectory (ht : t.NamesDistinct) (hnew : t.entry? d name = none) :
    (t.addDirectory d name).1.NamesDistinct := by
  intro directory hmem
  rcases List.mem_append.mp hmem with hmem | hmem
  · exact ht.addEntry hnew directory hmem
  · rw [List.mem_singleton.mp hmem]
    exact List.nodup_nil

/-- What a directory lists is what a lookup in it finds. -/
theorem NamesDistinct.entry?_of_mem (ht : t.NamesDistinct)
    (hget : t.directories[d]? = some directory) (hmem : (name, node) ∈ directory.entries) :
    t.entry? d name = some node := by
  rw [entry?_of_get? hget]
  exact lookup_of_mem (ht directory (List.mem_of_getElem? hget)) hmem

theorem NamesDistinct.entry?_eq_some_iff (ht : t.NamesDistinct) :
    t.entry? d name = some node ↔ t.Lists d name node := by
  constructor
  · intro h
    unfold entry? at h
    obtain ⟨directory, hget, hlookup⟩ := Option.bind_eq_some_iff.mp h
    obtain ⟨before, after, hentries, -⟩ := List.lookup_eq_some_iff.mp hlookup
    refine ⟨directory, hget, ?_⟩
    rw [hentries]
    exact List.mem_append_right _ List.mem_cons_self
  · intro h
    obtain ⟨directory, hget, hmem⟩ := h
    exact ht.entry?_of_mem hget hmem

end Tree

end PathResolution
