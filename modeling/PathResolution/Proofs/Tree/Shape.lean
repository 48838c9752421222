/-
The shape of a tree that was built.

Directories refer to each other twice, by the entries downwards and by the
parent upwards, and nothing in the type keeps the two in step. `WellFormed`
says that they are: an entry that is a directory has the directory that holds
it as its parent, every directory but the root is the entry of its parent,
under one name, and the root is above itself. Numbers grow downwards
(`parent_lt`), so going up ends at the root.

Growing a tree by one entry changes one look-up (`entry?_addEntry`,
`entry?_addDirectory`) and keeps the shape, if nothing was there before.
Growth.lean shows that builders do nothing else.

Literal look-ups (`node?`) take lists of names apart at any point
(`node?_append`). A trail is such a list with its innermost name first, and
`spelled` is what it leads to; the name in front is looked up in the directory
that the rest of the trail spells (`spelled_cons`), and dropping it is going
up (`spelled_tail`).
-/
import PathResolution.Proofs.Names
import PathResolution.Tree.Basic

namespace PathResolution.Tree

variable {t : Tree} {d c : DirId} {name : Name} {node : Node}

-- =============================================================== growing

/-- The number of a directory of the tree. -/
abbrev Has (t : Tree) (d : DirId) : Prop := d < t.directories.length

theorem entry?_of_get? {directory : Directory} (h : t.directories[d]? = some directory)
    (name : Name) : t.entry? d name = directory.entries.lookup name := by
  unfold entry?
  rw [h]
  rfl

/-- A directory that is not there has no entries. -/
theorem entry?_of_not_has (h : ¬ t.Has d) (name : Name) : t.entry? d name = none := by
  unfold entry?
  rw [List.getElem?_eq_none (Nat.le_of_not_lt h)]
  rfl

/-- A new entry changes one look-up. -/
theorem entry?_addEntry (hd : t.Has d) (hnew : t.entry? d name = none) (d' : DirId)
    (name' : Name) :
    Tree.entry? (t.addEntry d name node) d' name'
      = if d' = d ∧ name' = name then some node else t.entry? d' name' := by
  by_cases hd' : d' = d
  · subst hd'
    obtain ⟨directory, hget⟩ : ∃ directory, t.directories[d']? = some directory :=
      ⟨_, List.getElem?_eq_getElem hd⟩
    have hget' : (t.addEntry d' name node).directories[d']?
        = some { directory with entries := directory.entries ++ [(name, node)] } := by
      rw [addEntry, List.getElem?_modify_eq, hget]
      rfl
    rw [entry?_of_get? hget] at hnew
    rw [entry?_of_get? hget', entry?_of_get? hget, List.lookup_append]
    by_cases hname : name' = name
    · rw [hname, hnew, if_pos ⟨rfl, rfl⟩, List.lookup_cons_self, Option.none_or]
    · have hne : (name' == name) = false := by simpa using hname
      rw [if_neg (fun h => hname h.2), List.lookup_cons, hne, List.lookup_nil, Option.or_none]
  · have hget : (t.addEntry d name node).directories[d']? = t.directories[d']? :=
      List.getElem?_modify_ne _ _ (Ne.symm hd')
    rw [if_neg (fun h => hd' h.1)]
    unfold entry?
    rw [hget]

theorem length_addEntry (t : Tree) (d : DirId) (name : Name) (node : Node) :
    (t.addEntry d name node).directories.length = t.directories.length :=
  List.length_modify ..

theorem parent_addEntry (t : Tree) (d : DirId) (name : Name) (node : Node) (d' : DirId) :
    (t.addEntry d name node).parent d' = t.parent d' := by
  unfold parent addEntry
  rw [List.getElem?_modify]
  cases t.directories[d']? with
  | none => rfl
  | some directory =>
      by_cases h : d = d'
      · simp [h]
      · simp [h]

/-- A new directory changes one look-up: itself it is empty. -/
theorem entry?_addDirectory (hd : t.Has d) (hnew : t.entry? d name = none) (d' : DirId)
    (name' : Name) :
    Tree.entry? (t.addDirectory d name).1 d' name'
      = if d' = d ∧ name' = name then some (.directory t.directories.length)
        else t.entry? d' name' := by
  rw [← entry?_addEntry hd hnew]
  unfold addDirectory entry?
  rw [List.getElem?_append]
  split
  · rfl
  · next hd' =>
    rw [List.getElem?_eq_none (Nat.le_of_not_lt hd')]
    cases hget : [(⟨d, []⟩ : Directory)][d' - _]? with
    | none => rfl
    | some directory =>
        have hmem := List.mem_of_getElem? hget
        rw [List.mem_singleton.mp hmem]
        rfl

/-- A new directory has no entries. -/
theorem entry?_addDirectory_next (name' : Name) :
    Tree.entry? (t.addDirectory d name).1 t.directories.length name' = none := by
  have hlength := length_addEntry t d name (.directory t.directories.length)
  have hget : (t.addDirectory d name).1.directories[t.directories.length]? = some ⟨d, []⟩ := by
    show ((t.addEntry d name _).directories ++ [_])[t.directories.length]? = _
    rw [List.getElem?_append_right (Nat.le_of_eq hlength), hlength, Nat.sub_self]
    rfl
  rw [entry?_of_get? hget]
  rfl

theorem length_addDirectory :
    (t.addDirectory d name).1.directories.length = t.directories.length + 1 := by
  show ((t.addEntry d name _).directories ++ [_]).length = _
  rw [List.length_append, length_addEntry, List.length_singleton]

theorem parent_addDirectory (d' : DirId) :
    (t.addDirectory d name).1.parent d'
      = if d' = t.directories.length then d else t.parent d' := by
  have hlength := length_addEntry t d name (.directory t.directories.length)
  unfold addDirectory parent
  rw [List.getElem?_append, hlength]
  by_cases hlt : d' < t.directories.length
  · have hparent := parent_addEntry t d name (.directory t.directories.length) d'
    rw [if_pos hlt, if_neg (Nat.ne_of_lt hlt)]
    exact hparent
  · rw [if_neg hlt]
    by_cases heq : d' = t.directories.length
    · rw [if_pos heq, heq, Nat.sub_self]
      rfl
    · have hgt : t.directories.length < d' :=
        Nat.lt_of_le_of_ne (Nat.le_of_not_lt hlt) (Ne.symm heq)
      have hone : ([(⟨d, []⟩ : Directory)]).length ≤ d' - t.directories.length :=
        Nat.sub_pos_of_lt hgt
      rw [if_neg heq, List.getElem?_eq_none hone, List.getElem?_eq_none (Nat.le_of_not_lt hlt)]

-- ============================================================ the shape

/-- The entries downwards and the parents upwards fit together. -/
structure WellFormed (t : Tree) : Prop where
  has_root : t.Has root
  parent_root : t.parent root = root
  has_of_entry : ∀ d name c, t.entry? d name = some (.directory c) → t.Has c ∧ c ≠ root
  parent_of_entry : ∀ d name c, t.entry? d name = some (.directory c) → t.parent c = d
  name_unique : ∀ d name name' c, t.entry? d name = some (.directory c) →
    t.entry? d name' = some (.directory c) → name = name'
  entry_of_ne_root : ∀ c, t.Has c → c ≠ root →
    ∃ name, t.entry? (t.parent c) name = some (.directory c)
  parent_lt : ∀ c, t.Has c → c ≠ root → t.parent c < c
  isName_of_entry : ∀ d name node, t.entry? d name = some node → IsName name

theorem empty_wellFormed : empty.WellFormed := by
  have hnone : ∀ d name, empty.entry? d name = none := by
    intro d name
    match d with
    | 0 => rfl
    | d + 1 => exact entry?_of_not_has (by simp [Has, empty]) name
  have hroot : ∀ c, empty.Has c → c = root := fun c hc => Nat.lt_one_iff.mp hc
  exact ⟨Nat.one_pos, rfl, fun _ _ _ h => by simp [hnone] at h,
    fun _ _ _ h => by simp [hnone] at h, fun _ _ _ _ h => by simp [hnone] at h,
    fun c hc hne => absurd (hroot c hc) hne, fun c hc hne => absurd (hroot c hc) hne,
    fun _ _ _ h => by simp [hnone] at h⟩

/-- A new file or link keeps the shape. -/
theorem WellFormed.addEntry (wf : t.WellFormed) (hd : t.Has d) (hnew : t.entry? d name = none)
    (hname : IsName name) (hnode : ∀ c, node ≠ .directory c) :
    (t.addEntry d name node).WellFormed := by
  have hold : ∀ d' name' c, Tree.entry? (t.addEntry d name node) d' name' = some (.directory c) →
      t.entry? d' name' = some (.directory c) := by
    intro d' name' c h
    rw [entry?_addEntry hd hnew] at h
    split at h
    · injection h with h
      exact absurd h (hnode c)
    · exact h
  have hhas : ∀ c, (t.addEntry d name node).Has c → t.Has c := by
    intro c hc
    rwa [Has, length_addEntry] at hc
  refine ⟨?_, ?_, ?_, ?_, ?_, ?_, ?_, ?_⟩
  · rw [Has, length_addEntry]
    exact wf.has_root
  · rw [parent_addEntry]
    exact wf.parent_root
  · intro d' name' c h
    rw [Has, length_addEntry]
    exact wf.has_of_entry d' name' c (hold d' name' c h)
  · intro d' name' c h
    rw [parent_addEntry]
    exact wf.parent_of_entry d' name' c (hold d' name' c h)
  · intro d' name' name'' c h h'
    exact wf.name_unique d' name' name'' c (hold _ _ c h) (hold _ _ c h')
  · intro c hc hne
    obtain ⟨name', h⟩ := wf.entry_of_ne_root c (hhas c hc) hne
    refine ⟨name', ?_⟩
    rw [parent_addEntry, entry?_addEntry hd hnew, if_neg, h]
    intro heq
    rw [heq.1, heq.2, hnew] at h
    cases h
  · intro c hc hne
    rw [parent_addEntry]
    exact wf.parent_lt c (hhas c hc) hne
  · intro d' name' node' h
    rw [entry?_addEntry hd hnew] at h
    split at h
    · next heq => exact heq.2 ▸ hname
    · exact wf.isName_of_entry d' name' node' h

/-- A new directory keeps the shape: it is the entry of its parent, and nothing
refers to it yet. -/
theorem WellFormed.addDirectory (wf : t.WellFormed) (hd : t.Has d)
    (hnew : t.entry? d name = none) (hname : IsName name) :
    (t.addDirectory d name).1.WellFormed := by
  have hcases : ∀ d' name' c,
      Tree.entry? (t.addDirectory d name).1 d' name' = some (.directory c) →
        (d' = d ∧ name' = name ∧ c = t.directories.length)
          ∨ (t.entry? d' name' = some (.directory c) ∧ c ≠ t.directories.length) := by
    intro d' name' c h
    rw [entry?_addDirectory hd hnew] at h
    split at h
    · next heq =>
      injection h with h
      injection h with h
      exact .inl ⟨heq.1, heq.2, h.symm⟩
    · exact .inr ⟨h, Nat.ne_of_lt (wf.has_of_entry d' name' c h).1⟩
  have hhas : ∀ c, (t.addDirectory d name).1.Has c → c = t.directories.length ∨ t.Has c := by
    intro c hc
    rw [Has, length_addDirectory] at hc
    exact (Nat.lt_succ_iff_lt_or_eq.mp hc).symm
  have hroot : root ≠ t.directories.length := Nat.ne_of_lt wf.has_root
  refine ⟨?_, ?_, ?_, ?_, ?_, ?_, ?_, ?_⟩
  · rw [Has, length_addDirectory]
    exact Nat.succ_pos _
  · rw [parent_addDirectory, if_neg hroot]
    exact wf.parent_root
  · intro d' name' c h
    rw [Has, length_addDirectory]
    rcases hcases d' name' c h with ⟨-, -, rfl⟩ | ⟨h, -⟩
    · exact ⟨Nat.lt_succ_self _, Ne.symm hroot⟩
    · obtain ⟨hc, hne⟩ := wf.has_of_entry d' name' c h
      exact ⟨Nat.lt_succ_of_lt hc, hne⟩
  · intro d' name' c h
    rw [parent_addDirectory]
    rcases hcases d' name' c h with ⟨rfl, -, rfl⟩ | ⟨h, hne⟩
    · rw [if_pos rfl]
    · rw [if_neg hne]
      exact wf.parent_of_entry d' name' c h
  · intro d' name' name'' c h h'
    rcases hcases d' name' c h with ⟨-, rfl, rfl⟩ | ⟨h, hne⟩
    · rcases hcases d' name'' _ h' with ⟨-, rfl, -⟩ | ⟨-, hne⟩
      · rfl
      · exact absurd rfl hne
    · rcases hcases d' name'' c h' with ⟨-, -, heq⟩ | ⟨h', -⟩
      · exact absurd heq hne
      · exact wf.name_unique d' name' name'' c h h'
  · intro c hc hne
    rw [parent_addDirectory]
    by_cases heq : c = t.directories.length
    · refine ⟨name, ?_⟩
      rw [if_pos heq, entry?_addDirectory hd hnew, if_pos ⟨rfl, rfl⟩, heq]
    · obtain ⟨name', h⟩ := wf.entry_of_ne_root c ((hhas c hc).resolve_left heq) hne
      refine ⟨name', ?_⟩
      rw [if_neg heq, entry?_addDirectory hd hnew, if_neg, h]
      intro heq
      rw [heq.1, heq.2, hnew] at h
      cases h
  · intro c hc hne
    rw [parent_addDirectory]
    by_cases heq : c = t.directories.length
    · rw [if_pos heq, heq]
      exact hd
    · rw [if_neg heq]
      exact wf.parent_lt c ((hhas c hc).resolve_left heq) hne
  · intro d' name' node h
    rw [entry?_addDirectory hd hnew] at h
    split at h
    · next heq => exact heq.2 ▸ hname
    · exact wf.isName_of_entry d' name' node h

-- ====================================================== literal look-ups

theorem nodeFrom?_append (node : Node) (front back : List Name) :
    t.nodeFrom? node (front ++ back)
      = (t.nodeFrom? node front).bind fun mid => t.nodeFrom? mid back := by
  induction front generalizing node with
  | nil => rfl
  | cons name front ih =>
      cases node with
      | directory d =>
          rw [List.cons_append, nodeFrom?, nodeFrom?]
          cases t.entry? d name with
          | none => rfl
          | some child => exact ih child
      | file => rfl
      | link target => rfl

/-- A list of names is looked up piece by piece. -/
theorem node?_append (front back : List Name) :
    t.node? (front ++ back) = (t.node? front).bind fun mid => t.nodeFrom? mid back :=
  nodeFrom?_append _ front back

/-- What a trail leads to, followed literally. -/
def spelled (t : Tree) (trail : List Name) : Option Node := t.node? trail.reverse

theorem spelled_reverse (ns : List Name) : t.spelled ns.reverse = t.node? ns := by
  rw [spelled, List.reverse_reverse]

@[simp]
theorem spelled_nil : t.spelled [] = some (.directory root) := rfl

/-- The name in front is looked up in the directory that the rest spells. -/
theorem spelled_cons {trail : List Name} (h : t.spelled trail = some (.directory d))
    (name : Name) : t.spelled (name :: trail) = t.entry? d name := by
  unfold spelled at *
  rw [List.reverse_cons, node?_append, h, Option.bind_some, nodeFrom?]
  cases t.entry? d name <;> rfl

/-- A trail that leads somewhere goes through directories. -/
theorem directory_of_spelled_cons {trail : List Name} (h : t.spelled (name :: trail) = some node) :
    ∃ d, t.spelled trail = some (.directory d) ∧ t.entry? d name = some node := by
  unfold spelled at *
  rw [List.reverse_cons, node?_append] at h
  cases htrail : t.node? trail.reverse with
  | none =>
      rw [htrail] at h
      cases h
  | some mid =>
      rw [htrail, Option.bind_some] at h
      cases mid with
      | directory d =>
          have hspelled : t.spelled trail = some (.directory d) := htrail
          refine ⟨d, rfl, ?_⟩
          rw [← spelled_cons hspelled, spelled, List.reverse_cons, node?_append, htrail,
            Option.bind_some, h]
      | file => cases h
      | link target => cases h

/-- A trail that leads to a directory leads to one of the tree. -/
theorem WellFormed.has_of_spelled (wf : t.WellFormed) {trail : List Name}
    (h : t.spelled trail = some (.directory d)) : t.Has d := by
  cases trail with
  | nil =>
      injection h with h
      injection h with h
      exact h ▸ wf.has_root
  | cons name trail =>
      obtain ⟨holder, -, hentry⟩ := directory_of_spelled_cons h
      exact (wf.has_of_entry holder name d hentry).1

theorem WellFormed.has_of_node? (wf : t.WellFormed) {ns : List Name}
    (h : t.node? ns = some (.directory d)) : t.Has d := by
  exact wf.has_of_spelled ((spelled_reverse ns).trans h)

/-- A trail leads to every directory of the tree. -/
theorem WellFormed.exists_spelled (wf : t.WellFormed) (hd : t.Has d) :
    ∃ trail, t.spelled trail = some (.directory d) := by
  induction d using Nat.strongRecOn with
  | _ d ih =>
      by_cases hroot : d = root
      · exact ⟨[], by rw [hroot, spelled_nil]⟩
      · have hlt : t.parent d < d := wf.parent_lt d hd hroot
        obtain ⟨name, hentry⟩ := wf.entry_of_ne_root d hd hroot
        obtain ⟨trail, htrail⟩ := ih (t.parent d) hlt (Nat.lt_trans hlt hd)
        exact ⟨name :: trail, (spelled_cons htrail name).trans hentry⟩

/-- Dropping the last name of a trail is going up; from the root it leads to the
root. -/
theorem WellFormed.spelled_tail (wf : t.WellFormed) {trail : List Name}
    (h : t.spelled trail = some (.directory d)) :
    t.spelled trail.tail = some (.directory (t.parent d)) := by
  cases trail with
  | nil =>
      injection h with h
      injection h with h
      rw [← h, wf.parent_root]
      rfl
  | cons name trail =>
      obtain ⟨d', htrail, hentry⟩ := directory_of_spelled_cons h
      rw [List.tail_cons, wf.parent_of_entry d' name d hentry, htrail]

end PathResolution.Tree
