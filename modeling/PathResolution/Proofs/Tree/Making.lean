/-
What each builder does to a tree.

Three of the builders make one thing: they look for the place that the path
names, and either make the thing there or leave what is there alone. They differ
in what they make, in what they put up with if the place is taken, and in the
error for what they do not (`makeOne`).

The builder that makes missing directories goes through all names, and makes
directories as it goes. It goes on into what it has made, and that is empty, so
nothing stands in its way from there on (`makeDirectoriesFrom_of_empty`). Hence
it fails before it has made anything, if it fails (`makeDirectoriesFrom_of_error`),
and whether it fails can be told from the tree as it was
(`makeDirectoriesFrom_eq_ok_iff`).
-/
import PathResolution.Proofs.Tree.Literal

namespace PathResolution.Tree

variable {t : Tree} {d c : DirId} {name : Name} {node : Node} {path : Text}
  {ns front : List Name} {fault : Fault} {kind : Kind} {tolerates : Kind → Bool} {code : Errno}

-- ============================================================ one thing

/-- Makes one thing in the place that a path names. What is there already stays,
and is an error unless it is tolerated. -/
def makeOne (t : Tree) (path : Text) (kind : Kind) (tolerates : Kind → Bool) (code : Errno) :
    Built :=
  match t.locate path with
  | .error fault => (.error fault, t)
  | .ok (d, name) =>
    match t.entry? d name with
    | none => (.ok (), t.add kind d name)
    | some node => (if tolerates node.kind then .ok () else .error (faultAt code path), t)

theorem makeDirectory_eq (t : Tree) (path : Text) (mayExist : Bool) :
    t.makeDirectory path mayExist
      = t.makeOne path .directory (fun kind => mayExist && kind == .directory)
          Errno.entryExists := by
  unfold makeDirectory makeOne
  cases t.locate path with
  | error fault => rfl
  | ok place =>
      dsimp only
      cases t.entry? place.1 place.2 with
      | none => rfl
      | some node => cases node <;> cases mayExist <;> rfl

theorem makeFile_eq (t : Tree) (path : Text) :
    t.makeFile path = t.makeOne path .file (· != .directory) Errno.isADirectory := by
  unfold makeFile makeOne
  cases t.locate path with
  | error fault => rfl
  | ok place =>
      dsimp only
      cases t.entry? place.1 place.2 with
      | none => rfl
      | some node => cases node <;> rfl

theorem makeLink_eq (t : Tree) (target path : Text) :
    t.makeLink target path
      = t.makeOne path (.link target) (fun _ => false) Errno.entryExists := by
  unfold makeLink makeOne
  cases t.locate path with
  | error fault => rfl
  | ok place =>
      dsimp only
      cases t.entry? place.1 place.2 with
      | none => rfl
      | some node => rfl

/-- If it fails, it has made nothing. -/
theorem makeOne_of_error (h : (t.makeOne path kind tolerates code).1 = .error fault) :
    (t.makeOne path kind tolerates code).2 = t := by
  unfold makeOne at h ⊢
  split
  · rfl
  · next hlocate =>
    rw [hlocate] at h
    split
    · next hnew =>
      simp only [hnew] at h
      cases h
    · rfl

/-- A dot among the names is refused. -/
theorem makeOne_of_dots (h : ¬ HasPlainNames path) :
    t.makeOne path kind tolerates code = (.error (faultAt Errno.invalidArgument path), t) := by
  unfold makeOne
  rw [locate_of_dots h]

/-- With the place at hand, what is made depends on what stands there. -/
theorem makeOne_of_place (hplain : HasPlainNames path)
    (hnames : names path = front ++ [name]) (hfront : t.node? front = some (.directory d)) :
    t.makeOne path kind tolerates code = match t.entry? d name with
      | none => (.ok (), t.add kind d name)
      | some node => (if tolerates node.kind then .ok () else .error (faultAt code path), t) := by
  unfold makeOne
  rw [locate_eq_ok_iff.mpr ⟨hplain, front, hnames, hfront⟩]

/-- It succeeds exactly if the path has a place, and nothing stands there that is
not tolerated. -/
theorem makeOne_eq_ok_iff (hplain : HasPlainNames path) :
    (t.makeOne path kind tolerates code).1 = .ok ()
      ↔ t.literal.HasPlace path
        ∧ ∀ there, t.literal (names path) = some there → tolerates there = true := by
  constructor
  · intro h
    cases hlocate : t.locate path with
    | error fault =>
        simp only [makeOne, hlocate] at h
        cases h
    | ok place =>
        obtain ⟨d, name⟩ := place
        obtain ⟨-, front, hnames, hfront⟩ := locate_eq_ok_iff.mp hlocate
        refine ⟨hasPlace_iff.mpr ⟨front, name, d, hnames, hfront⟩, fun there hthere => ?_⟩
        rw [makeOne_of_place hplain hnames hfront] at h
        rw [hnames, literal, node?_concat hfront] at hthere
        cases hentry : t.entry? d name with
        | none =>
            rw [hentry] at hthere
            cases hthere
        | some node =>
            rw [hentry] at h hthere
            injection hthere with hthere
            rw [← hthere]
            simpa using h
  · intro h
    obtain ⟨hplace, htolerates⟩ := h
    obtain ⟨front, name, d, hnames, hfront⟩ := hasPlace_iff.mp hplace
    rw [makeOne_of_place hplain hnames hfront]
    rw [hnames, literal, node?_concat hfront] at htolerates
    cases hentry : t.entry? d name with
    | none => rfl
    | some node =>
        rw [hentry] at htolerates
        exact if_pos (htolerates _ rfl)

/-- If it succeeds, the thing is found under the names of the path, unless
something was found there before; nothing else changes. -/
theorem WellFormed.literal_makeOne (wf : t.WellFormed) (hplain : HasPlainNames path)
    (h : (t.makeOne path kind tolerates code).1 = .ok ()) (ns : List Name) :
    (t.makeOne path kind tolerates code).2.literal ns
      = if t.literal ns = none ∧ ns = names path then some kind else t.literal ns := by
  obtain ⟨front, name, d, hnames, hfront⟩ :=
    hasPlace_iff.mp ((makeOne_eq_ok_iff hplain).mp h).1
  rw [makeOne_of_place hplain hnames hfront]
  have hthere : t.literal (front ++ [name]) = (t.entry? d name).map Node.kind := by
    rw [literal, node?_concat hfront]
  cases hentry : t.entry? d name with
  | none =>
      rw [hentry] at hthere
      show (t.add kind d name).literal ns = _
      rw [wf.literal_add hfront hentry, hnames]
      by_cases hns : ns = front ++ [name]
      · rw [if_pos hns, if_pos ⟨hns ▸ hthere, hns⟩]
      · rw [if_neg hns, if_neg fun hboth => hns hboth.2]
  | some node =>
      rw [hentry] at hthere
      rw [if_neg]
      rintro ⟨hnone, rfl⟩
      rw [hnames, hthere] at hnone
      cases hnone

-- ==================================================== missing directories

theorem makeDirectoriesFrom_of_directory (h : t.entry? d name = some (.directory c)) :
    makeDirectoriesFrom path d (name :: ns) t = makeDirectoriesFrom path c ns t := by
  rw [makeDirectoriesFrom, h]

theorem makeDirectoriesFrom_of_missing (h : t.entry? d name = none) :
    makeDirectoriesFrom path d (name :: ns) t
      = makeDirectoriesFrom path t.directories.length ns (t.addDirectory d name).1 := by
  rw [makeDirectoriesFrom, h]
  rfl

theorem makeDirectoriesFrom_of_blocked (h : t.entry? d name = some node)
    (hnode : node.kind ≠ .directory) :
    makeDirectoriesFrom path d (name :: ns) t
      = (.error (faultAt Errno.notADirectory path), t) := by
  rw [makeDirectoriesFrom, h]
  cases node with
  | directory c => exact absurd rfl hnode
  | file => rfl
  | link target => rfl

/-- What a name is to the builder that makes missing directories. -/
theorem passes (t : Tree) (d : DirId) (name : Name) :
    t.entry? d name = none ∨ (∃ c, t.entry? d name = some (.directory c))
      ∨ ∃ node, t.entry? d name = some node ∧ node.kind ≠ .directory := by
  cases t.entry? d name with
  | none => exact .inl rfl
  | some node =>
      cases node with
      | directory c => exact .inr (.inl ⟨c, rfl⟩)
      | file => exact .inr (.inr ⟨_, rfl, nofun⟩)
      | link target => exact .inr (.inr ⟨_, rfl, nofun⟩)

/-- In an empty directory nothing stands in the way. -/
theorem makeDirectoriesFrom_of_empty (hempty : ∀ name, t.entry? d name = none) :
    (makeDirectoriesFrom path d ns t).1 = .ok () := by
  induction ns generalizing d t with
  | nil => rfl
  | cons name ns ih =>
      rw [makeDirectoriesFrom_of_missing (hempty name)]
      exact ih entry?_addDirectory_next

/-- If it fails, it has made nothing: what it makes is empty, and it goes on
from there. -/
theorem makeDirectoriesFrom_of_error (h : (makeDirectoriesFrom path d ns t).1 = .error fault) :
    (makeDirectoriesFrom path d ns t).2 = t := by
  induction ns generalizing d with
  | nil => cases h
  | cons name ns ih =>
      rcases t.passes d name with hmissing | ⟨c, hc⟩ | ⟨node, hnode, hkind⟩
      · rw [makeDirectoriesFrom_of_missing hmissing,
          makeDirectoriesFrom_of_empty entry?_addDirectory_next] at h
        cases h
      · rw [makeDirectoriesFrom_of_directory hc] at h ⊢
        exact ih h
      · rw [makeDirectoriesFrom_of_blocked hnode hkind]

/-- There is one way to fail. -/
theorem fault_of_makeDirectoriesFrom (h : (makeDirectoriesFrom path d ns t).1 = .error fault) :
    fault = faultAt Errno.notADirectory path := by
  induction ns generalizing d t with
  | nil => cases h
  | cons name ns ih =>
      rcases t.passes d name with hmissing | ⟨c, hc⟩ | ⟨node, hnode, hkind⟩
      · rw [makeDirectoriesFrom_of_missing hmissing] at h
        exact ih h
      · rw [makeDirectoriesFrom_of_directory hc] at h
        exact ih h
      · rw [makeDirectoriesFrom_of_blocked hnode hkind] at h
        injection h with h
        exact h.symm

/-- It succeeds exactly if the names pass by nothing but directories, as far as
they lead anywhere. -/
theorem makeDirectoriesFrom_eq_ok_iff :
    (makeDirectoriesFrom path d ns t).1 = .ok ()
      ↔ ∀ above, above <+: ns → ∀ node, t.nodeFrom? (.directory d) above = some node →
        node.kind = .directory := by
  induction ns generalizing d with
  | nil =>
      refine iff_of_true rfl fun above habove node hnode => ?_
      rw [List.prefix_nil.mp habove] at hnode
      injection hnode with hnode
      rw [← hnode]
      rfl
  | cons name ns ih =>
      rcases t.passes d name with hmissing | ⟨c, hc⟩ | ⟨blocking, hblocking, hkind⟩
      · rw [makeDirectoriesFrom_of_missing hmissing]
        refine iff_of_true (makeDirectoriesFrom_of_empty entry?_addDirectory_next) ?_
        intro above habove node hnode
        rcases List.prefix_cons_iff.mp habove with rfl | ⟨rest, rfl, -⟩
        · injection hnode with hnode
          rw [← hnode]
          rfl
        · rw [nodeFrom?, hmissing] at hnode
          cases hnode
      · rw [makeDirectoriesFrom_of_directory hc, ih]
        constructor
        · intro h above habove node hnode
          rcases List.prefix_cons_iff.mp habove with rfl | ⟨rest, rfl, hrest⟩
          · injection hnode with hnode
            rw [← hnode]
            rfl
          · rw [nodeFrom?, hc] at hnode
            exact h rest hrest node hnode
        · intro h above habove node hnode
          refine h (name :: above) (List.cons_prefix_cons.mpr ⟨rfl, habove⟩) node ?_
          rw [nodeFrom?, hc]
          exact hnode
      · rw [makeDirectoriesFrom_of_blocked hblocking hkind]
        refine iff_of_false (fun h => by cases h) fun h => hkind ?_
        refine h [name] (List.cons_prefix_cons.mpr ⟨rfl, List.nil_prefix⟩) blocking ?_
        rw [nodeFrom?, hblocking]
        rfl

/-- A step of it that makes a directory, as growth. -/
theorem WellFormed.grows_addDirectory (wf : t.WellFormed) (hd : t.Has d)
    (hmissing : t.entry? d name = none) (hname : IsName name) :
    t.Grows (t.addDirectory d name).1 ∧ (t.addDirectory d name).1.WellFormed
      ∧ (t.addDirectory d name).1.Has t.directories.length
      ∧ Tree.entry? (t.addDirectory d name).1 d name = some (.directory t.directories.length) := by
  have hgrows : t.Grows (t.addDirectory d name).1 := Grows.same.directory hd hmissing hname
  refine ⟨hgrows, hgrows.wellFormed wf, ?_, ?_⟩
  · rw [Has, length_addDirectory]
    exact Nat.lt_succ_self _
  · rw [entry?_addDirectory hd hmissing, if_pos ⟨rfl, rfl⟩]

/-- If it succeeds, all names lead through directories. -/
theorem WellFormed.directory_of_makeDirectoriesFrom (wf : t.WellFormed)
    (hns : ∀ n ∈ ns, IsName n) (hd : t.Has d) (h : (makeDirectoriesFrom path d ns t).1 = .ok ())
    {above : List Name} (habove : above <+: ns) :
    ∃ c, (makeDirectoriesFrom path d ns t).2.nodeFrom? (.directory d) above
      = some (.directory c) := by
  induction ns generalizing d t above with
  | nil =>
      rw [List.prefix_nil.mp habove]
      exact ⟨d, rfl⟩
  | cons name ns ih =>
      have hname : IsName name := hns name List.mem_cons_self
      have hns' : ∀ n ∈ ns, IsName n := fun n hn => hns n (List.mem_cons_of_mem _ hn)
      rcases List.prefix_cons_iff.mp habove with rfl | ⟨rest, rfl, hrest⟩
      · exact ⟨d, rfl⟩
      · rcases t.passes d name with hmissing | ⟨c, hc⟩ | ⟨node, hnode, hkind⟩
        · rw [makeDirectoriesFrom_of_missing hmissing] at h ⊢
          obtain ⟨-, hgrown, hchild, hmade⟩ := wf.grows_addDirectory hd hmissing hname
          rw [nodeFrom?, (hgrown.makeDirectoriesFrom_grows hns' hchild).entry?_eq hmade]
          exact ih hgrown hns' hchild h hrest
        · rw [makeDirectoriesFrom_of_directory hc] at h ⊢
          have hchild := (wf.has_of_entry d name c hc).1
          rw [nodeFrom?, (wf.makeDirectoriesFrom_grows hns' hchild).entry?_eq hc]
          exact ih wf hns' hchild h hrest
        · rw [makeDirectoriesFrom_of_blocked hnode hkind] at h
          cases h

/-- What is found after it and was not found before is on the way. -/
theorem WellFormed.literal_makeDirectoriesFrom_of_ne (wf : t.WellFormed)
    (hns : ∀ n ∈ ns, IsName n) (hfront : t.node? front = some (.directory d)) {found : List Name}
    (h : (makeDirectoriesFrom path d ns t).2.literal found ≠ t.literal found) :
    t.literal found = none ∧ ∃ above, above ≠ [] ∧ above <+: ns ∧ found = front ++ above := by
  induction ns generalizing d t front with
  | nil => exact absurd rfl h
  | cons name ns ih =>
      have hname : IsName name := hns name List.mem_cons_self
      have hns' : ∀ n ∈ ns, IsName n := fun n hn => hns n (List.mem_cons_of_mem _ hn)
      have hbehind : ∀ above, front ++ [name] ++ above = front ++ name :: above := by simp
      rcases t.passes d name with hmissing | ⟨c, hc⟩ | ⟨node, hnode, hkind⟩
      · rw [makeDirectoriesFrom_of_missing hmissing] at h
        obtain ⟨hgrows, hgrown, hchild, hmade⟩ :=
          wf.grows_addDirectory (wf.has_of_node? hfront) hmissing hname
        have hadd : (t.addDirectory d name).1.literal found
            = if found = front ++ [name] then some .directory else t.literal found :=
          wf.literal_add hfront hmissing .directory found
        by_cases hnow : found = front ++ [name]
        · refine ⟨?_, [name], List.cons_ne_nil _ _, ?_, hnow⟩
          · rw [hnow, literal, node?_concat hfront, hmissing]
            rfl
          · exact List.cons_prefix_cons.mpr ⟨rfl, List.nil_prefix⟩
        · rw [if_neg hnow] at hadd
          rw [← hadd] at h ⊢
          obtain ⟨hnone, above, -, habove, rfl⟩ :=
            ih hgrown hns' ((node?_concat (hgrows.node?_eq hfront) name).trans hmade) h
          exact ⟨hnone, name :: above, List.cons_ne_nil _ _,
            List.cons_prefix_cons.mpr ⟨rfl, habove⟩, hbehind above⟩
      · rw [makeDirectoriesFrom_of_directory hc] at h
        obtain ⟨hnone, above, -, habove, rfl⟩ :=
          ih wf hns' ((node?_concat hfront name).trans hc) h
        exact ⟨hnone, name :: above, List.cons_ne_nil _ _,
          List.cons_prefix_cons.mpr ⟨rfl, habove⟩, hbehind above⟩
      · rw [makeDirectoriesFrom_of_blocked hnode hkind] at h
        exact absurd rfl h

/-- Missing directories are made exactly if no file and no link is on the way. -/
theorem makeDirectories_eq_ok_iff :
    (t.makeDirectories path).1 = .ok ()
      ↔ ∀ above, above <+: names path →
        t.literal above = none ∨ t.literal above = some .directory := by
  unfold makeDirectories
  rw [makeDirectoriesFrom_eq_ok_iff]
  refine forall_congr' fun above => imp_congr_right fun _ => ?_
  show (∀ node, t.node? above = some node → _) ↔ _
  unfold literal
  cases t.node? above with
  | none => simp
  | some node => simp

/-- All names of the path lead through directories then, and nothing else
changes. -/
theorem WellFormed.literal_makeDirectories (wf : t.WellFormed)
    (h : (t.makeDirectories path).1 = .ok ()) (ns : List Name) :
    (t.makeDirectories path).2.literal ns
      = if t.literal ns = none ∧ ns ≠ [] ∧ ns <+: names path then some .directory
        else t.literal ns := by
  have hnames : ∀ n ∈ names path, IsName n := fun _ hn => isName_of_mem_names hn
  have hroot : t.node? [] = some (.directory root) := rfl
  split
  · next hmissing =>
    exact literal_eq_directory_iff.mpr
      (wf.directory_of_makeDirectoriesFrom hnames wf.has_root h hmissing.2.2)
  · next hother =>
    refine Decidable.byContradiction fun hne => ?_
    obtain ⟨hnone, above, hnil, habove, rfl⟩ :=
      wf.literal_makeDirectoriesFrom_of_ne hnames hroot hne
    exact hother ⟨hnone, hnil, habove⟩

end PathResolution.Tree
