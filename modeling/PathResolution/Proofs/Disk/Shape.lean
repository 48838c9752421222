/-
The disks that can come about.

A directory can be removed from the disk, and its number stays in use, so the
shape of such a tree is weaker than that of a tree in memory: the entry of a
directory has the directory that holds it as its parent, but not every directory
is an entry. What a lookup finds is what was put there last (`names_nodup`), and
the disk holds names as it keeps them (`plain_of_entry`), so looking a name up
again finds the same entry.

The path of a directory, if it has one, is made of such entries
(`exists_of_pathTo?`). The builders look before they add, and add only to
directories that have a path; with that they keep the shape
(`Reachable.wellFormed`).
-/
import PathResolution.Disk.Builders
import PathResolution.Proofs.Disk.Names
import PathResolution.Proofs.Handles.Table
import PathResolution.Proofs.Tree.Entries

namespace PathResolution

-- ============================================================== removing

theorem lookup_filter_ne {α : Type} (entries : List (Name × α)) (name other : Name) :
    (entries.filter fun e => e.1 != name).lookup other
      = if other = name then none else entries.lookup other := by
  induction entries with
  | nil => simp
  | cons e entries ih =>
      by_cases he : e.1 = name
      · rw [List.filter_cons_of_neg (by simpa using he), ih, List.lookup_cons]
        by_cases hother : other = name
        · rw [if_pos hother, if_pos hother]
        · have hne : (other == e.1) = false := by simpa [he] using hother
          rw [if_neg hother, if_neg hother, hne]
      · rw [List.filter_cons_of_pos (by simpa using he), List.lookup_cons, List.lookup_cons, ih]
        by_cases hother : other = name
        · have hne : (other == e.1) = false := by simpa [hother] using Ne.symm he
          rw [if_pos hother, if_pos hother, hne]
        · rw [if_neg hother, if_neg hother]

namespace Tree

variable {t : Tree} {d c : DirId} {name : Name} {node : Node}

theorem entry?_removeEntry (t : Tree) (d : DirId) (name : Name) (d' : DirId) (name' : Name) :
    Tree.entry? (t.removeEntry d name) d' name'
      = if d' = d ∧ name' = name then none else t.entry? d' name' := by
  unfold entry? removeEntry
  rw [List.getElem?_modify]
  cases t.directories[d']? with
  | none => simp
  | some directory =>
      by_cases hd : d = d'
      · subst hd
        simpa using lookup_filter_ne directory.entries name name'
      · simp [hd, Ne.symm hd]

theorem parent_removeEntry (t : Tree) (d : DirId) (name : Name) (d' : DirId) :
    (t.removeEntry d name).parent d' = t.parent d' := by
  unfold parent removeEntry
  rw [List.getElem?_modify]
  cases t.directories[d']? with
  | none => rfl
  | some directory =>
      by_cases h : d = d'
      · simp [h]
      · simp [h]

theorem length_removeEntry (t : Tree) (d : DirId) (name : Name) :
    (t.removeEntry d name).directories.length = t.directories.length :=
  List.length_modify ..

end Tree

namespace Disk

-- ================================================================= shape

/-- What holds of the tree on a disk. -/
structure Sound (t : Tree) : Prop where
  has_root : t.Has Tree.root
  parent_root : t.parent Tree.root = Tree.root
  has_of_entry : ∀ d name c, t.entry? d name = some (.directory c) → t.Has c ∧ c ≠ Tree.root
  parent_of_entry : ∀ d name c, t.entry? d name = some (.directory c) → t.parent c = d
  plain_of_entry : ∀ d name node, t.entry? d name = some node → IsPlainName name ∧ kept name = name
  encodable_of_link : ∀ d name target, t.entry? d name = some (.link target) → Encodable target
  names_nodup : ∀ directory ∈ t.directories, (directory.entries.map Prod.fst).Nodup

variable {t : Tree} {d c : DirId} {name : Name} {node : Node}

theorem empty_sound : Sound .empty := by
  have hnone : ∀ d name, Tree.empty.entry? d name = none := by
    intro d name
    match d with
    | 0 => rfl
    | d + 1 => exact Tree.entry?_of_not_has (by simp [Tree.Has, Tree.empty]) name
  refine ⟨Nat.one_pos, rfl, fun _ _ _ h => ?_, fun _ _ _ h => ?_, fun _ _ _ h => ?_,
    fun _ _ _ h => ?_, ?_⟩
  · simp [hnone] at h
  · simp [hnone] at h
  · simp [hnone] at h
  · simp [hnone] at h
  · exact Tree.empty_namesDistinct

/-- A new file or link keeps the shape. -/
theorem Sound.addEntry (hs : Sound t) (hd : t.Has d) (hnew : t.entry? d name = none)
    (hname : IsPlainName name ∧ kept name = name) (hnode : ∀ c, node ≠ .directory c)
    (hlink : ∀ target, node = .link target → Encodable target) :
    Sound (t.addEntry d name node) := by
  have hold : ∀ d' name' c, Tree.entry? (t.addEntry d name node) d' name' = some (.directory c) →
      t.entry? d' name' = some (.directory c) := by
    intro d' name' c h
    rw [Tree.entry?_addEntry hd hnew] at h
    split at h
    · injection h with h
      exact absurd h (hnode c)
    · exact h
  refine ⟨?_, ?_, ?_, ?_, ?_, ?_, Tree.NamesDistinct.addEntry hs.names_nodup hnew⟩
  · rw [Tree.Has, Tree.length_addEntry]
    exact hs.has_root
  · rw [Tree.parent_addEntry]
    exact hs.parent_root
  · intro d' name' c h
    rw [Tree.Has, Tree.length_addEntry]
    exact hs.has_of_entry d' name' c (hold d' name' c h)
  · intro d' name' c h
    rw [Tree.parent_addEntry]
    exact hs.parent_of_entry d' name' c (hold d' name' c h)
  · intro d' name' node' h
    rw [Tree.entry?_addEntry hd hnew] at h
    split at h
    · next heq => exact heq.2 ▸ hname
    · exact hs.plain_of_entry d' name' node' h
  · intro d' name' target h
    rw [Tree.entry?_addEntry hd hnew] at h
    split at h
    · injection h with h
      exact hlink target h
    · exact hs.encodable_of_link d' name' target h

/-- A new directory keeps the shape. -/
theorem Sound.addDirectory (hs : Sound t) (hd : t.Has d) (hnew : t.entry? d name = none)
    (hname : IsPlainName name ∧ kept name = name) : Sound (t.addDirectory d name).1 := by
  have hcases : ∀ d' name' c,
      Tree.entry? (t.addDirectory d name).1 d' name' = some (.directory c) →
        (d' = d ∧ c = t.directories.length)
          ∨ (t.entry? d' name' = some (.directory c) ∧ c ≠ t.directories.length) := by
    intro d' name' c h
    rw [Tree.entry?_addDirectory hd hnew] at h
    split at h
    · next heq =>
      injection h with h
      injection h with h
      exact .inl ⟨heq.1, h.symm⟩
    · exact .inr ⟨h, Nat.ne_of_lt (hs.has_of_entry d' name' c h).1⟩
  have hroot : Tree.root ≠ t.directories.length := Nat.ne_of_lt hs.has_root
  refine ⟨?_, ?_, ?_, ?_, ?_, ?_, ?_⟩
  · rw [Tree.Has, Tree.length_addDirectory]
    exact Nat.succ_pos _
  · rw [Tree.parent_addDirectory, if_neg hroot]
    exact hs.parent_root
  · intro d' name' c h
    rw [Tree.Has, Tree.length_addDirectory]
    rcases hcases d' name' c h with ⟨-, rfl⟩ | ⟨h, -⟩
    · exact ⟨Nat.lt_succ_self _, Ne.symm hroot⟩
    · obtain ⟨hc, hne⟩ := hs.has_of_entry d' name' c h
      exact ⟨Nat.lt_succ_of_lt hc, hne⟩
  · intro d' name' c h
    rw [Tree.parent_addDirectory]
    rcases hcases d' name' c h with ⟨rfl, rfl⟩ | ⟨h, hne⟩
    · rw [if_pos rfl]
    · rw [if_neg hne]
      exact hs.parent_of_entry d' name' c h
  · intro d' name' node' h
    rw [Tree.entry?_addDirectory hd hnew] at h
    split at h
    · next heq => exact heq.2 ▸ hname
    · exact hs.plain_of_entry d' name' node' h
  · intro d' name' target h
    rw [Tree.entry?_addDirectory hd hnew] at h
    split at h
    · injection h with h
      cases h
    · exact hs.encodable_of_link d' name' target h
  · exact Tree.NamesDistinct.addDirectory hs.names_nodup hnew

/-- Removing an entry keeps the shape. -/
theorem Sound.removeEntry (hs : Sound t) (d : DirId) (name : Name) :
    Sound (t.removeEntry d name) := by
  have hold : ∀ d' name' node, Tree.entry? (t.removeEntry d name) d' name' = some node →
      t.entry? d' name' = some node := by
    intro d' name' node h
    rw [Tree.entry?_removeEntry] at h
    split at h
    · cases h
    · exact h
  refine ⟨?_, ?_, ?_, ?_, ?_, ?_, ?_⟩
  · rw [Tree.Has, Tree.length_removeEntry]
    exact hs.has_root
  · rw [Tree.parent_removeEntry]
    exact hs.parent_root
  · intro d' name' c h
    rw [Tree.Has, Tree.length_removeEntry]
    exact hs.has_of_entry d' name' c (hold _ _ _ h)
  · intro d' name' c h
    rw [Tree.parent_removeEntry]
    exact hs.parent_of_entry d' name' c (hold _ _ _ h)
  · intro d' name' node h
    exact hs.plain_of_entry d' name' node (hold _ _ _ h)
  · intro d' name' target h
    exact hs.encodable_of_link d' name' target (hold _ _ _ h)
  · intro directory hmem
    rcases mem_of_mem_modify hmem with hmem | ⟨old, hget, rfl⟩
    · exact hs.names_nodup directory hmem
    · exact (hs.names_nodup old (List.mem_of_getElem? hget)).sublist (List.filter_sublist.map _)

-- ================================================================= paths

theorem Sound.node?_of_namesAbove? (hs : Sound t) {height : Nat} {below ns : List Name}
    (h : namesAbove? t height d below = some ns) :
    ∃ above, ns = above ++ below ∧ t.node? above = some (.directory d) := by
  induction height generalizing d below with
  | zero =>
      rw [namesAbove?] at h
      split at h
      · next hroot =>
        injection h with h
        exact ⟨[], h.symm, hroot ▸ rfl⟩
      · cases h
  | succ height ih =>
      rw [namesAbove?] at h
      split at h
      · next hroot =>
        injection h with h
        exact ⟨[], h.symm, hroot ▸ rfl⟩
      · cases hget : t.directories[t.parent d]? with
        | none => simp [hget] at h
        | some directory =>
            cases hfind : directory.entries.find? fun e => e.2 == .directory d with
            | none => simp [hget, hfind] at h
            | some e =>
                obtain ⟨name, node⟩ := e
                have hnode : node = .directory d := by simpa using List.find?_some hfind
                have hentry : t.entry? (t.parent d) name = some (.directory d) :=
                  Tree.NamesDistinct.entry?_of_mem hs.names_nodup hget
                    (hnode ▸ List.mem_of_find?_eq_some hfind)
                have habove : namesAbove? t height (t.parent d) (name :: below) = some ns := by
                  simpa [hget, hfind] using h
                obtain ⟨above, hns, hfound⟩ := ih habove
                refine ⟨above ++ [name], by rw [hns, List.append_assoc]; rfl, ?_⟩
                rw [Tree.node?_append, hfound, Option.bind_some, Tree.nodeFrom?, hentry]
                rfl

/-- The path of a directory consists of the names of entries that lead to it. -/
theorem Sound.exists_of_pathTo? (hs : Sound t) {path : Text} (h : pathTo? t d = some path) :
    ∃ ns, path = pathOf ns ∧ t.node? ns = some (.directory d) := by
  unfold pathTo? at h
  obtain ⟨ns, hns, rfl⟩ := Option.map_eq_some_iff.mp h
  obtain ⟨above, rfl, hfound⟩ := hs.node?_of_namesAbove? hns
  rw [List.append_nil]
  exact ⟨above, rfl, hfound⟩

theorem Sound.has_of_node? (hs : Sound t) {ns : List Name}
    (h : t.node? ns = some (.directory d)) : t.Has d := by
  have hspelled : t.spelled ns.reverse = some (.directory d) := (Tree.spelled_reverse ns).trans h
  cases hns : ns.reverse with
  | nil =>
      rw [hns] at hspelled
      injection hspelled with hspelled
      injection hspelled with hspelled
      exact hspelled ▸ hs.has_root
  | cons name above =>
      rw [hns] at hspelled
      obtain ⟨holder, -, hentry⟩ := Tree.directory_of_spelled_cons hspelled
      exact (hs.has_of_entry holder name d hentry).1

/-- The names that lead to a node are as the disk keeps them. -/
theorem Sound.plain_of_nodeFrom? (hs : Sound t) {ns : List Name} {start : Node}
    (h : t.nodeFrom? start ns = some node) : ∀ n ∈ ns, IsPlainName n ∧ kept n = n := by
  induction ns generalizing start with
  | nil => exact fun _ hn => absurd hn List.not_mem_nil
  | cons name ns ih =>
      cases start with
      | directory d =>
          rw [Tree.nodeFrom?] at h
          obtain ⟨next, hentry, h⟩ := Option.bind_eq_some_iff.mp h
          exact List.forall_mem_cons.mpr ⟨hs.plain_of_entry d name next hentry, ih h⟩
      | file => cases h
      | link target => cases h

theorem Sound.has_of_isAttached (hs : Sound t) (h : isAttached t d = true) : t.Has d := by
  obtain ⟨path, hpath⟩ := Option.isSome_iff_exists.mp h
  obtain ⟨ns, -, hfound⟩ := hs.exists_of_pathTo? hpath
  exact hs.has_of_node? hfound

-- ============================================================== builders

theorem encodable_of_refusal? {path : Text} (h : refusal? path = none) : Encodable path :=
  (refusal?_eq_none_iff.mp h).1

theorem refusal?_of_objection? {path : Text} (h : objection? path = none) :
    refusal? path = none := by
  unfold objection? at h
  split at h
  · cases h
  · next hrefusal => exact hrefusal

/-- The last name of a path, as a lookup has it. -/
theorem name_of_holderWithin {links left : Nat} {holder : DirId} {path : Text} {last : Name}
    (hpath : Encodable path) (h : holderWithin t links d path = .ok (holder, last, left)) :
    IsName last ∧ kept last = last := by
  simp only [holderWithin] at h
  split at h
  · cases h
  · next found hlast =>
    have hmem : found ∈ names (kept path) := List.mem_of_getLast? hlast
    split at h
    · cases h
    · cases h
      exact ⟨isName_of_mem_names hmem, kept_of_mem_names_kept hpath hmem⟩
    · cases h

theorem name_of_locate {holder : DirId} {path : Text} {last : Name} (hpath : Encodable path)
    (h : locate t d path = .ok (holder, last)) : IsName last ∧ kept last = last := by
  unfold locate at h
  split at h
  · cases h
  · next found last' left hholder =>
    split at h
    · cases h
    · cases h
      exact name_of_holderWithin hpath hholder

theorem Sound.makeOne (hs : Sound t) {path : Text} {grown : Tree} (hpath : Encodable path)
    (h : makeOne t d path = .ok grown) : Sound grown := by
  unfold Disk.makeOne at h
  split at h
  · cases h
  · next holder last hlocate =>
    obtain ⟨hname, hkept⟩ := name_of_locate hpath hlocate
    split at h
    · cases h
    · next hfree =>
      simp only [not_or, Option.not_isSome_iff_eq_none] at hfree
      split at h
      · next hattached =>
        cases h
        exact hs.addDirectory (hs.has_of_isAttached hattached) hfree.2.2
          ⟨⟨hname, hfree.1, hfree.2.1⟩, hkept⟩
      · cases h

theorem Sound.makeLast (hs : Sound t) (mayExist made : Bool) (path : Text) :
    Sound (makeLast d mayExist made path t).2 := by
  unfold Disk.makeLast
  split
  · exact hs
  · split
    · exact hs
    · next hobjection hmade =>
      exact hs.makeOne (encodable_of_refusal? (refusal?_of_objection? hobjection)) hmade
    · split
      · exact hs
      · exact hs

theorem Sound.makeWithAbove (hs : Sound t) (mayExist : Bool) (count : Nat) (path : Text) :
    Sound (makeWithAbove d mayExist count path t).2 := by
  induction count generalizing path t with
  | zero => exact hs
  | succ count ih =>
      have habove : ∀ missing : Bool, Sound (if missing then
          Disk.makeWithAbove d mayExist count (lastAndAbove path).1 t else (.ok (), t)).2 := by
        intro missing
        split
        · exact ih hs _
        · exact hs
      rw [Disk.makeWithAbove]
      dsimp only
      split
      · exact (habove _).makeLast _ _ _
      · split
        · exact (habove _).makeLast _ _ _
        · exact habove _

theorem Sound.makeFileFrom (hs : Sound t) {links : Nat} {path : Text} {grown : Tree}
    (hpath : Encodable path) (h : makeFileFrom t links d path = .ok grown) : Sound grown := by
  induction links using Nat.strongRecOn generalizing d path with
  | ind links ih =>
      rw [Disk.makeFileFrom] at h
      split at h
      · cases h
      · next holder last left hholder =>
        obtain ⟨hname, hkept⟩ := name_of_holderWithin hpath hholder
        have hleft := links_le_of_holderWithin hholder
        dsimp only at h
        split at h
        · cases h
        · next hplain =>
          simp only [not_or] at hplain
          split at h
          · cases h
          · split at h
            · next hnew =>
              split at h
              · next hattached =>
                cases h
                refine hs.addEntry (hs.has_of_isAttached hattached) hnew
                  ⟨⟨hname, hplain.1, hplain.2.1⟩, hkept⟩ (fun c heq => ?_) fun target heq => ?_
                · cases heq
                · cases heq
              · cases h
            · cases h
              exact hs
            · cases h
            · cases h
            · next hentry =>
              exact ih _ (by omega) (hs.encodable_of_link holder last _ hentry) h

theorem Sound.addLink (hs : Sound t) {target path : Text} {grown : Tree}
    (htarget : Encodable target) (hpath : Encodable path)
    (h : addLink t d target path = .ok grown) : Sound grown := by
  unfold Disk.addLink at h
  split at h
  · cases h
  · next holder last hlocate =>
    obtain ⟨hname, hkept⟩ := name_of_locate hpath hlocate
    split at h
    · cases h
    · next hfree =>
      simp only [not_or, Option.not_isSome_iff_eq_none] at hfree
      split at h
      · next hattached =>
        cases h
        refine hs.addEntry (hs.has_of_isAttached hattached.2) hfree.2.2
          ⟨⟨hname, hfree.1, hfree.2.1⟩, hkept⟩ nofun fun target' heq => ?_
        injection heq with heq
        exact heq ▸ encodable_kept.mpr htarget
      · cases h

-- ============================================================ reachable

/-- The disks that come about from an empty one. -/
inductive Reachable : Disk → Prop
  | empty : Reachable ⟨.empty, .empty, Tree.root⟩
  | makeDirectories {s : Disk} (path : Text) (mayExist : Bool) :
      Reachable s → Reachable (s.makeDirectories path mayExist).2
  | makeFile {s : Disk} (path : Text) : Reachable s → Reachable (s.makeFile path).2
  | makeLink {s : Disk} (target path : Text) : Reachable s → Reachable (s.makeLink target path).2
  | removeDirectory {s : Disk} (path : Text) : Reachable s → Reachable (s.removeDirectory path).2
  | changeDirectory {s : Disk} (path : Text) : Reachable s → Reachable (s.changeDirectory path).2
  | answer {s : Disk} (question : Primitive) :
      Reachable s → Reachable (Disk.answer question s).2

/-- The tree has its shape, and the handles are numbered in order. -/
structure WellFormed (s : Disk) : Prop where
  tree : Sound s.tree
  handles : s.handles.WellFormed

variable {s : Disk}

/-- A change with a path that the system accepts is made with a path that it can
be handed. -/
theorem WellFormed.accepting (wf : s.WellFormed) {path : Text} {change : Changed}
    (h : Encodable path → change.2.WellFormed) : (s.accepting path change).2.WellFormed := by
  unfold Disk.accepting
  split
  · exact wf
  · next hobjection => exact h (encodable_of_refusal? (refusal?_of_objection? hobjection))

theorem WellFormed.makeFile (wf : s.WellFormed) (path : Text) : (s.makeFile path).2.WellFormed := by
  refine wf.accepting fun hpath => ?_
  split
  · exact wf
  · next grown hgrown => exact ⟨wf.tree.makeFileFrom hpath hgrown, wf.handles⟩

theorem WellFormed.makeLink (wf : s.WellFormed) (target path : Text) :
    (s.makeLink target path).2.WellFormed := by
  unfold Disk.makeLink
  split
  · exact wf
  · exact wf
  · next htarget hpath =>
    split
    · exact wf
    · split
      · exact wf
      · split
        · exact wf
        · next grown hgrown =>
          have htargetBytes := encodable_of_refusal? htarget
          have hpathBytes := encodable_of_refusal? hpath
          exact ⟨wf.tree.addLink htargetBytes hpathBytes hgrown, wf.handles⟩

theorem WellFormed.removeDirectory (wf : s.WellFormed) (path : Text) :
    (s.removeDirectory path).2.WellFormed := by
  refine wf.accepting fun _ => ?_
  repeat' split
  all_goals first | exact wf | exact ⟨wf.tree.removeEntry _ _, wf.handles⟩

theorem WellFormed.changeDirectory (wf : s.WellFormed) (path : Text) :
    (s.changeDirectory path).2.WellFormed := by
  refine wf.accepting fun _ => ?_
  split
  · exact wf
  · exact ⟨wf.tree, wf.handles⟩
  · exact wf

/-- All that a call can do to the disk: open a handle, close one, or leave the
disk as it is. -/
theorem answer_cases (question : Primitive) (s : Disk) :
    (∃ d, (Disk.answer question s).2 = { s with handles := (s.handles.add d).2 })
      ∨ (∃ h closed, s.handles.close? h = some closed
          ∧ (Disk.answer question s).2 = { s with handles := closed })
      ∨ (Disk.answer question s).2 = s := by
  cases question with
  | openRoot => exact .inl ⟨Tree.root, rfl⟩
  | openRelative base name =>
      simp only [Disk.answer, Disk.openRelative]
      split
      · exact .inr (.inr rfl)
      · split
        · exact .inr (.inr rfl)
        · next found _ => exact .inl ⟨found, rfl⟩
  | readLink base name => exact .inr (.inr rfl)
  | close h =>
      simp only [Disk.answer, Disk.closeHandle]
      split
      · exact .inr (.inr rfl)
      · next closed hclosed => exact .inr (.inl ⟨h, closed, hclosed, rfl⟩)
  | workingDirectory => exact .inr (.inr rfl)

theorem WellFormed.answer (wf : s.WellFormed) (question : Primitive) :
    (Disk.answer question s).2.WellFormed := by
  rcases answer_cases question s with ⟨d, hs⟩ | ⟨h, closed, hc, hs⟩ | hs
  · rw [hs]
    exact ⟨wf.tree, wf.handles.add d⟩
  · rw [hs]
    exact ⟨wf.tree, wf.handles.close hc⟩
  · rw [hs]
    exact wf

/-- Every disk that comes about is well-formed. -/
theorem Reachable.wellFormed (h : s.Reachable) : s.WellFormed := by
  induction h with
  | empty => exact ⟨empty_sound, HandleTable.empty_wellFormed⟩
  | makeDirectories path mayExist _ ih =>
      exact ⟨ih.tree.makeWithAbove mayExist maxNesting path, ih.handles⟩
  | makeFile path _ ih => exact ih.makeFile path
  | makeLink target path _ ih => exact ih.makeLink target path
  | removeDirectory path _ ih => exact ih.removeDirectory path
  | changeDirectory path _ ih => exact ih.changeDirectory path
  | answer question _ ih => exact ih.answer question

end Disk

end PathResolution
