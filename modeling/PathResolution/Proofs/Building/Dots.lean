/-
Paths of builders that have a dot among their names.

A builder that makes one thing refuses them. The one that makes missing
directories does not look, and makes what it is told (`Store.build_of_dots`,
`Store.build_of_makesParents`). What it makes under such a name is there and is
listed, and is lost: looking up takes the name as a way, so no path leads to what
is below, and nothing opens it (`Store.outOfReach_of_dots`).

As long as that builder is given plain names, all names of the tree are plain
(`Store.plain_performAll`), and what has plain names is found by its literal path,
through directories, by walking as well as by resolving (`Store.found_of_plain`).
-/
import PathResolution.Proofs.Building.Effects
import PathResolution.Proofs.Building.Histories
import PathResolution.Proofs.Resolution.Composition

namespace PathResolution

open Store (Building)

variable {s : Store} {call : Building} {fault : Fault} {ns : List Name} {spot : Spot}

-- ============================================================== refusing

/-- The builders that make one thing refuse a dot among the names. -/
theorem Store.build_of_dots (hdots : ¬ HasPlainNames call.path)
    (hcall : call.makesParents = false) :
    s.build call = (.error (Tree.faultAt Errno.invalidArgument call.path), s) := by
  rw [build_eq, Building.built, hcall, if_neg Bool.false_ne_true, Tree.makeOne_of_dots hdots]
  rfl

/-- The builder that makes missing directories fails only where something is in
the way. -/
theorem Store.build_of_makesParents (hcall : call.makesParents = true)
    (h : (s.build call).1 = .error fault) : fault = Tree.faultAt Errno.notADirectory call.path := by
  rw [build_eq, Building.built, hcall, if_pos rfl] at h
  exact Tree.fault_of_makeDirectoriesFrom h

-- =========================================================== plain names

/-- Nothing is found but under plain names. -/
def Lookup.Plain (found : Lookup) : Prop := ∀ ns, found ns ≠ none → ArePlain ns

/-- What is found after a call was found before, or is on the way of its path. -/
theorem Lookup.prefix_of_after {found : Lookup} (haccepts : found.Accepts call)
    (h : found.after call ns ≠ none) : found ns ≠ none ∨ ns <+: names call.path := by
  cases hcall : call.makesParents with
  | true =>
      rw [after_of_makesParents hcall] at h
      split at h
      · next hmade => exact .inr hmade.2.2
      · exact .inl h
  | false =>
      rw [after_of_one hcall haccepts] at h
      split at h
      · next hmade => exact .inr (hmade.2 ▸ List.prefix_rfl)
      · exact .inl h

theorem Lookup.Plain.step {found : Lookup} (h : found.Plain) (hplain : HasPlainNames call.path) :
    (found.step call).Plain := by
  intro ns hns
  unfold Lookup.step at hns
  split at hns
  · next haccepts =>
    rcases prefix_of_after haccepts hns with hbefore | hway
    · exact h ns hbefore
    · exact ⟨fun hdot => hplain.1 (hway.subset hdot), fun hdot => hplain.2 (hway.subset hdot)⟩
  · exact h ns hns

namespace Store

theorem plain_empty (workingDirectory : Text) : (empty workingDirectory).tree.literal.Plain := by
  intro ns hns
  cases ns with
  | nil => decide
  | cons name ns => exact absurd rfl hns

theorem plain_build (wf : s.WellFormed) (h : s.tree.literal.Plain)
    (hcall : call.makesParents = true → HasPlainNames call.path) :
    (s.build call).2.tree.literal.Plain := by
  by_cases hplain : HasPlainNames call.path
  · rw [literal_build wf hplain]
    exact h.step hplain
  · have hone : call.makesParents = false := by
      rw [Bool.eq_false_iff]
      exact fun hparents => hplain (hcall hparents)
    rw [build_of_dots hplain hone]
    exact h

/-- All names stay plain while missing directories are made by plain names
only. -/
theorem plain_performAll {operations : List Operation} (hs : s.Reachable)
    (h : s.tree.literal.Plain)
    (hcalls : ∀ call, .build call ∈ operations → call.makesParents = true →
      HasPlainNames call.path) :
    (s.performAll operations).tree.literal.Plain := by
  induction operations generalizing s with
  | nil => exact h
  | cons operation operations ih =>
      refine ih (hs.perform operation) ?_ fun call hcall =>
        hcalls call (List.mem_cons_of_mem _ hcall)
      cases operation with
      | build call => exact plain_build hs.wellFormed h (hcalls call List.mem_cons_self)
      | changeDirectory path => exact h
      | ask question => exact (answer_frame question s).1 ▸ h
      | resolve limits env path exact => exact run_tree _ s ▸ h
      | resolveOrNone limits env path exact => exact run_tree _ s ▸ h

end Store

-- ================================================================ finding

namespace Tree

variable {t : Tree} {mode : ExistenceMode}

theorem Rests.reaches {trail : List Name} (h : t.Rests trail spot) : t.Reaches mode trail := by
  cases h with
  | directory hd => exact .directory _ hd
  | file hd hentry => exact .file ((spelled_cons hd _).trans hentry)

/-- A course of plain names to a spot takes them one for one. -/
theorem WellFormed.course_of_spot? (wf : t.WellFormed) (h : t.spot? ns = some spot)
    (hplain : ArePlain ns) (maxLinkSize : Nat) {budget : Nat} (hbudget : ns.length ≤ budget) :
    t.course mode maxLinkSize budget ns [] = .ok ns.reverse := by
  have hnames : ∀ n ∈ ns.reverse, IsPlainName n := fun n hn =>
    hplain.isPlainName (wf.isName_of_spot? h) (List.mem_reverse.mp hn)
  obtain ⟨left, rfl⟩ := Nat.exists_eq_add_of_le hbudget
  have harrive : t.arrive mode maxLinkSize (ns.reverse.length + left) (ns.reverse.reverse ++ []) []
      = t.arrive mode maxLinkSize left [] ns.reverse :=
    wf.arrive_trail hnames (spot?_eq_some_iff.mp h).reaches [] left
  rw [List.reverse_reverse, List.length_reverse, List.append_nil,
    arrive_of_directory spelled_nil] at harrive
  exact harrive

end Tree

namespace Store

/-- A literal path leads to its spot when it is walked, and to itself when it is
resolved. -/
structure FoundAt (s : Store) (ns : List Name) (spot : Spot) : Prop where
  literal : s.tree.spot? ns = some spot
  walked : s.tree.walkSpot Tree.root (pathOf ns) = .ok spot
  resolved : ∀ limits env exact mode, exact.mode? env = .ok mode → ns.length ≤ limits.loopBudget →
    s.resolved limits env (pathOf ns) exact = .ok (.text (pathOf ns))

/-- A node is found by its literal path; a link is read in its directory. -/
inductive Found (s : Store) : List Name → Node → Prop
  | spot {ns : List Name} {spot : Spot} : s.FoundAt ns spot → Found s ns spot.node
  | link {ns : List Name} {d : DirId} {name : Name} {target : Text} :
      s.FoundAt ns (.directory d) →
      (∀ h, s.handles.directory? h = some d → s.readLink h name = .ok target) →
      Found s (ns ++ [name]) (.link target)

/-- No path leads to a spot, no handle is open on it, and its literal path is no
answer. -/
structure OutOfReach (s : Store) (ns : List Name) (spot : Spot) : Prop where
  not_walked : ∀ path, s.tree.walkSpot Tree.root path ≠ .ok spot
  not_opened : ∀ e ∈ s.handles.opened, spot ≠ .directory e.2
  not_resolved : ∀ limits env path exact,
    s.resolved limits env path exact ≠ .ok (.text (pathOf ns))

theorem foundAt_of_plain (wf : s.WellFormed) (h : s.tree.spot? ns = some spot)
    (hplain : ArePlain ns) : s.FoundAt ns spot where
  literal := h
  walked := wf.tree.walkSpot_pathOf h hplain
  resolved := by
    intro limits env exact mode hmode hbudget
    refine (resolved_eq_ok_iff wf hmode).mpr ⟨ns.reverse, ?_, ?_⟩
    · rw [queueOf_pathOf (wf.tree.isName_of_spot? h)]
      exact wf.tree.course_of_spot? h hplain _ hbudget
    · rw [trailPath, List.reverse_reverse]

/-- A link is read by its name in the directory that lists it. -/
theorem readLink_of_entry {d : DirId} {name : Name} {target : Text} {h : Handle}
    (hdot : name ≠ dot) (hdotDot : name ≠ dotDot)
    (hentry : s.tree.entry? d name = some (.link target)) (hd : s.handles.directory? h = some d) :
    s.readLink h name = .ok target := by
  rw [readLink, hd]
  simp only [hdot, hdotDot, or_self, if_false, hentry]

/-- What has plain names is found. -/
theorem found_of_plain (wf : s.WellFormed) {node : Node} (h : s.tree.node? ns = some node)
    (hplain : ArePlain ns) : s.Found ns node := by
  by_cases hlink : ∃ target, node = .link target
  · obtain ⟨target, rfl⟩ := hlink
    rcases List.eq_nil_or_concat ns with rfl | ⟨front, name, rfl⟩
    · cases h
    · rw [List.concat_eq_append] at h hplain ⊢
      obtain ⟨hfront, hdot, hdotDot⟩ := arePlain_concat_iff.mp hplain
      obtain ⟨d, hd, hentry⟩ := Tree.directory_of_node?_concat h
      have hspot : s.tree.spot? front = some (.directory d) :=
        Tree.spot?_eq_some_iff.mpr (.directory ((Tree.spelled_reverse front).trans hd))
      exact .link (foundAt_of_plain wf hspot hfront) fun h hopen =>
        readLink_of_entry hdot hdotDot hentry hopen
  · obtain ⟨spot, hspot, rfl⟩ := Tree.exists_spot_of_node? h fun target heq => hlink ⟨target, heq⟩
    exact .spot (foundAt_of_plain wf hspot hplain)

/-- What has a dot among its names is lost. -/
theorem outOfReach_of_dots (hs : s.Reachable) (h : s.tree.spot? ns = some spot)
    (hdots : ¬ ArePlain ns) : s.OutOfReach ns spot := by
  have wf : s.tree.WellFormed := hs.wellFormed.tree
  have hhidden : ¬ s.tree.Visible spot := fun hvisible => hdots ((wf.visible_iff h).mp hvisible)
  refine ⟨fun path hwalk => ?_, fun e he heq => ?_, fun limits env path exact hresolved => ?_⟩
  · exact hhidden (wf.visible_of_walkSpot Tree.visible_root hwalk)
  · exact hhidden (heq ▸ hs.handlesStand e he)
  · obtain ⟨ns', hpath, hplain⟩ := isCanonical_of_resolve hresolved
    have hsame : ns = ns' := by
      rw [← names_pathOf (wf.isName_of_spot? h), hpath,
        names_pathOf fun n hn => (hplain n hn).toIsName]
    exact hdots (hsame ▸ arePlain_of_isPlainName hplain)

/-- What is listed has a literal path. -/
theorem exists_node?_of_lists (hs : s.Reachable) {d : DirId} {name : Name} {node : Node}
    (h : s.tree.Lists d name node) :
    ∃ ns, s.tree.node? ns = some (.directory d) ∧ s.tree.node? (ns ++ [name]) = some node := by
  obtain ⟨trail, htrail⟩ := hs.wellFormed.tree.exists_spelled h.has
  have hd : s.tree.node? trail.reverse = some (.directory d) := htrail
  refine ⟨trail.reverse, hd, ?_⟩
  rw [Tree.node?_concat hd]
  exact hs.isHierarchy.namesDistinct.entry?_eq_some_iff.mpr h

end Store

/-- After every history, a builder refuses a dot among the names of its path
exactly if it makes one thing. While missing directories are made by plain names
only, no directory lists a dot, and everything is found by its literal path. What
is below a dot is out of reach. -/
theorem only_missing_directories_take_dots (workingDirectory : Text)
    (operations : List Store.Operation) :
    let s := (Store.empty workingDirectory).performAll operations
    (∀ call : Building, ¬ HasPlainNames call.path →
        (s.build call = (.error (Tree.faultAt Errno.invalidArgument call.path), s)
          ↔ call.makesParents = false))
      ∧ ((∀ call : Building, .build call ∈ operations → call.makesParents = true →
            HasPlainNames call.path) →
          (∀ d name node, s.tree.Lists d name node → name ≠ dot ∧ name ≠ dotDot)
            ∧ ∀ ns node, s.tree.node? ns = some node → s.Found ns node)
      ∧ (∀ d name node, s.tree.Lists d name node →
          ∃ ns, s.tree.node? ns = some (.directory d) ∧ s.tree.node? (ns ++ [name]) = some node)
      ∧ ∀ ns spot, s.tree.spot? ns = some spot → ¬ ArePlain ns → s.OutOfReach ns spot := by
  intro s
  have hempty : (Store.empty workingDirectory).Reachable := .empty workingDirectory
  have hs : s.Reachable := hempty.performAll operations
  refine ⟨fun call hdots => ⟨fun h => ?_, Store.build_of_dots hdots⟩, fun hcalls => ?_,
    fun d name node => Store.exists_node?_of_lists hs, fun ns spot => Store.outOfReach_of_dots hs⟩
  · rw [Bool.eq_false_iff]
    intro hparents
    have hfault := Store.build_of_makesParents hparents (congrArg Prod.fst h)
    injection hfault with hcode
    exact absurd hcode (by decide)
  · have hplain : s.tree.literal.Plain :=
      Store.plain_performAll hempty (Store.plain_empty workingDirectory) hcalls
    have hnames : ∀ {ns node}, s.tree.node? ns = some node → ArePlain ns := by
      intro ns node hnode
      refine hplain ns ?_
      rw [Tree.literal, hnode]
      exact Option.some_ne_none _
    refine ⟨fun d name node hlists => ?_, fun ns node hnode =>
      Store.found_of_plain hs.wellFormed hnode (hnames hnode)⟩
    obtain ⟨ns, -, hnode⟩ := Store.exists_node?_of_lists hs hlists
    exact (arePlain_concat_iff.mp (hnames hnode)).2

/-- A directory with a file and a link in it, made by plain names. -/
theorem only_missing_directories_take_dots_of_plain :
    let operations : List Store.Operation :=
      [.build (.makeDirectory (text "//d/e/") true false), .build (.makeFile (text "/d/f")),
        .build (.makeLink (text "../d") (text "/d/l"))]
    let s := (Store.empty (text "/")).performAll operations
    s.Found [text "d", text "e"] (.directory 2) ∧ s.Found [text "d", text "f"] .file
      ∧ s.Found [text "d", text "l"] (.link (text "../d")) := by
  intro operations s
  have hcalls : ∀ call : Building, .build call ∈ operations → call.makesParents = true →
      HasPlainNames call.path := by
    intro call hcall hparents
    simp only [operations, List.mem_cons, Store.Operation.build.injEq, List.not_mem_nil,
      or_false] at hcall
    rcases hcall with rfl | rfl | rfl
    · decide
    · cases hparents
    · cases hparents
  obtain ⟨-, hfound⟩ := (only_missing_directories_take_dots (text "/") operations).2.1 hcalls
  exact ⟨hfound _ _ rfl, hfound _ _ rfl, hfound _ _ rfl⟩

/-- Missing directories are made of a path with `..`: a directory is called so, and
no path leads to what is in it. -/
theorem missing_directories_named_dots :
    let call : Building := .makeDirectory (text "/a/../b") true false
    let before := Store.empty (text "/")
    let after := (before.build call).2
    dotDot ∈ names call.path ∧ (before.build call).1 = .ok () ∧ after.tree ≠ before.tree
      ∧ after.tree.Lists 1 dotDot (.directory 2)
      ∧ after.tree.spot? [text "a", dotDot, text "b"] = some (.directory 3)
      ∧ ∀ path, after.tree.walkSpot Tree.root path ≠ .ok (.directory 3) := by
  intro call before after
  have hafter : after.Reachable := .makeDirectory _ _ _ (.empty _)
  have hspot : after.tree.spot? [text "a", dotDot, text "b"] = some (.directory 3) := rfl
  exact ⟨by decide, rfl, by decide, ⟨_, rfl, List.mem_cons_self⟩, hspot,
    (Store.outOfReach_of_dots hafter hspot (by decide)).not_walked⟩

end PathResolution
