/-
The cursor stands where the trail says.

Committed names and cursor are moved by different hands: a name is committed
without a move if it is the last one, `..` moves the cursor up even if no name
is there to drop, and an absolute link forgets the trail and opens the root. In
memory the two agree at every head of the loop: the cursor holds an open handle
to the directory that the trail spells, and the trail spells it literally,
through directories and no link (`Heads.standing`). Since everything is asked
through the handle that the cursor holds at a head, it is asked in that
directory (`cursor_stands_at_trail`).
-/
import PathResolution.Proofs.Handles.Discipline
import PathResolution.Proofs.Resolution.Canonical
import PathResolution.Proofs.Resolution.Heads

namespace PathResolution

-- ====================================================== real directories

namespace Tree

variable {t : Tree} {trail : List Name} {d : DirId}

/-- Plain names that lead to a directory from the root, looked up literally:
each of them is a directory, and none a link. -/
structure RealDirectory (t : Tree) (ns : List Name) (d : DirId) : Prop where
  plain : ∀ n ∈ ns, IsPlainName n
  through : ∀ k ≤ ns.length, ∃ c, t.node? (ns.take k) = some (.directory c)
  ends : t.node? ns = some (.directory d)

theorem realDirectory_of_spelled (h : t.spelled trail = some (.directory d))
    (hplain : ∀ n ∈ trail, IsPlainName n) : t.RealDirectory trail.reverse d where
  plain n hn := hplain n (List.mem_reverse.mp hn)
  through k hk := by
    rcases Nat.lt_or_eq_of_le hk with hlt | heq
    · exact directory_of_node?_take h hlt
    · rw [heq, List.take_length]
      exact ⟨d, h⟩
  ends := h

end Tree

-- ================================================================= heads

section

variable {s s' : Store} {mode : ExistenceMode} {maxLinkSize taken : Nat} {path : Text} {v : Visit}
  {name : Name} {pending trail : List Name} {cursor : Cursor}

/-- What a run that goes on has done is a step that goes on. -/
theorem Tracks.onward {t : Tree} {step : Step} {view : View} (h : Tracks t step (.onward v) view) :
    step = .onward v.pending v.trail ∧ Standing t v view := by
  cases step with
  | onward pending trail =>
      obtain ⟨rfl, rfl, hstanding⟩ := h
      exact ⟨rfl, hstanding⟩
  | arrived trail => exact h.elim
  | stuck failure => exact h.elim

theorem Tracks.stuck {t : Tree} {step : Step} {failure : Failure} {view : View}
    (h : Tracks t step (.stuck failure cursor) view) : step = .stuck failure := by
  cases step with
  | onward pending trail => exact h.elim
  | arrived trail => exact h.elim
  | stuck failure' => exact congrArg _ h.1.symm

/-- While the cursor stands where it should, taking a name does what the tree
says. -/
theorem takeName_tracks {t : Tree} {w : Text} {view : View} (wf : t.WellFormed)
    (hshows : s'.Shows t w view) (hstanding : Standing t ⟨name :: pending, trail, cursor⟩ view) :
    let after := (takeName mode maxLinkSize name ⟨pending, trail, cursor⟩).run Store.answer s'
    ∃ view', Tracks t (t.step mode maxLinkSize name pending trail) after.value view'
      ∧ after.state.Shows t w view' := by
  obtain ⟨d, ⟨h, rfl, rfl⟩, hspelled⟩ := hstanding
  exact (takeName_follows_step (hspelled (List.cons_ne_nil _ _)) wf).run
    (Store.honours_tree t w) hshows

/-- Before the loop the working directory is known and the root is opened. -/
theorem Store.enters (hs : s.WellFormed) (path : Text) :
    let started := (startingDirectory path).run Store.answer s
    let entered := Cursor.closed.enter.run Store.answer started.state
    started.value = .ok (if isAbsolute path then [] else s.workingDirectory)
      ∧ entered.value.1 = .ok ()
      ∧ ∃ view, entered.state.Shows s.tree s.workingDirectory view
        ∧ Holding entered.value.2 Tree.root view := by
  intro started entered
  have honours := Store.honours_tree s.tree s.workingDirectory
  obtain ⟨_, ⟨hstarted, rfl⟩, hshows⟩ := (startingDirectory_follows_tree path).run honours
    (Store.shows_nothing hs.handles)
  obtain ⟨view, ⟨hentered, hcursor⟩, hshows'⟩ := enter_follows_tree.run honours hshows
  exact ⟨hstarted, hentered, view, hshows', hcursor⟩

theorem Store.exists_first_head (hs : s.WellFormed) (mode : ExistenceMode) (maxLinkSize : Nat)
    (path : Text) :
    ∃ cursor s₀, Heads Store.answer mode maxLinkSize path s 0
      ⟨queueOf s.workingDirectory path, [], cursor⟩ s₀ := by
  obtain ⟨hstarted, hentered, -⟩ := enters hs path
  exact ⟨_, _, .first hstarted (Prod.ext hentered rfl)⟩

/-- At every head of the loop the cursor stands where it should; and whatever
was asked before, the tree is as it was. -/
theorem Heads.standing (hs : s.WellFormed)
    (h : Heads Store.answer mode maxLinkSize path s taken v s') :
    ∃ view, s'.Shows s.tree s.workingDirectory view ∧ Standing s.tree v view := by
  induction h with
  | first _ henter =>
      obtain ⟨-, -, view, hshows, hcursor⟩ := Store.enters hs path
      rw [henter] at hcursor
      exact ⟨view, hshows, Tree.root, hcursor, fun _ => rfl⟩
  | next _ hvalue ih =>
      obtain ⟨_, hshows, hstanding⟩ := ih
      obtain ⟨view, htracks, hshows'⟩ := takeName_tracks hs.tree hshows hstanding
      rw [hvalue] at htracks
      exact ⟨view, hshows', htracks.onward.2⟩

/-- Taking a name at a head does what the tree says. -/
theorem Heads.tracks (hs : s.WellFormed)
    (h : Heads Store.answer mode maxLinkSize path s taken ⟨name :: pending, trail, cursor⟩ s') :
    ∃ view, Tracks s.tree (s.tree.step mode maxLinkSize name pending trail)
      ((takeName mode maxLinkSize name ⟨pending, trail, cursor⟩).run Store.answer s').value
      view := by
  obtain ⟨_, hshows, hstanding⟩ := h.standing hs
  obtain ⟨view, htracks, -⟩ := takeName_tracks hs.tree hshows hstanding
  exact ⟨view, htracks⟩

/-- The course of a path ends as the loop does, at one of its heads. -/
theorem Store.loopEnds (hs : s.WellFormed) (mode : ExistenceMode) (maxLinkSize : Nat)
    (path : Text) (budget : Nat) :
    ∃ cursor, LoopEnds Store.answer mode maxLinkSize path s budget
      (s.tree.course mode maxLinkSize budget (queueOf s.workingDirectory path) [], cursor) := by
  obtain ⟨cursor, s₀, hfirst⟩ := exists_first_head hs mode maxLinkSize path
  obtain ⟨view, hshows, hstanding⟩ := hfirst.standing hs
  have hends := hfirst.ends budget
  rw [Nat.zero_add] at hends
  cases hvalue : ((takeNames mode maxLinkSize budget
      ⟨queueOf s.workingDirectory path, [], cursor⟩).run Store.answer s₀).value with
  | mk answer cursor' =>
      obtain ⟨_, ⟨hcourse, -⟩, -⟩ := (takeNames_follows_course hs.tree budget _ view hstanding).run
        (Store.honours_tree s.tree s.workingDirectory) hshows
      rw [hvalue] at hends hcourse
      obtain rfl : answer = _ := hcourse
      exact ⟨cursor', hends⟩

/-- While names wait, the cursor of a head holds a handle to the directory that
the committed names lead to. -/
theorem Heads.realDirectory (hs : s.WellFormed)
    (h : Heads Store.answer mode maxLinkSize path s taken v s') (hpending : v.pending ≠ []) :
    ∃ handle d, v.cursor = ⟨some handle⟩ ∧ s'.handles.directory? handle = some d
      ∧ s'.tree = s.tree ∧ s.tree.RealDirectory v.trail.reverse d := by
  obtain ⟨view, hshows, d, ⟨handle, hcursor, rfl⟩, hspelled⟩ := h.standing hs
  exact ⟨handle, d, hcursor, hshows.seen handle d View.only_self, hshows.tree,
    Tree.realDirectory_of_spelled (hspelled hpending) h.wellSpelt.trail⟩

end

-- ============================================================= arguments

/-- What is asked in a resolution of any path is asked in a resolution of its
text. -/
theorem asked_of_resolve {σ : Type} {answer : Dialogue.Answering σ} {s s₁ : σ} {limits : Limits}
    {env : Environment} {path exact : Value} {argument : PathArgument} {mode : ExistenceMode}
    {question : Primitive} (hpath : path.path? = .ok argument) (hmode : exact.mode? env = .ok mode)
    (hasked : (question, s₁) ∈ (resolve limits env path exact).asked answer s) :
    ∃ shown, (question, s₁)
      ∈ (canonicalPathShown shown limits mode argument.asText).asked answer s := by
  simp only [resolve, hpath, hmode] at hasked
  cases argument with
  | text path =>
      simp only [canonicalArgument, Dialogue.asked_bind, Dialogue.asked, List.append_nil] at hasked
      exact ⟨_, hasked⟩
  | bytes path =>
      simp only [canonicalArgument, Dialogue.asked_bind, Dialogue.asked, List.append_nil] at hasked
      exact ⟨_, hasked⟩

/-- At every head of the loop at which names wait, the cursor holds an open
handle to the directory that the committed names lead to, literally; and what is
asked through a handle is asked through the one that the cursor holds at a head,
so in the directory of which the path is written from the names that were
committed there. -/
theorem cursor_stands_at_trail (s : Store) (hs : s.Reachable) (limits : Limits)
    (env : Environment) (path exact : Value) (argument : PathArgument) (mode : ExistenceMode)
    (hpath : path.path? = .ok argument) (hmode : exact.mode? env = .ok mode) :
    (∀ taken v s', Heads Store.answer mode limits.maxLinkSize argument.asText s taken v s' →
        v.pending ≠ [] →
        ∃ handle d, v.cursor = ⟨some handle⟩ ∧ s'.handles.directory? handle = some d
          ∧ s'.tree = s.tree ∧ s.tree.RealDirectory v.trail.reverse d)
      ∧ ∀ question s₁ base, (question, s₁) ∈ (resolve limits env path exact).asked Store.answer s →
        question.base? = some base →
        ∃ taken v d, taken < limits.loopBudget
          ∧ Heads Store.answer mode limits.maxLinkSize argument.asText s taken v s₁
          ∧ v.pending ≠ [] ∧ v.cursor = ⟨some base⟩ ∧ s₁.handles.directory? base = some d
          ∧ s.tree.RealDirectory (names (trailPath v.trail)) d := by
  refine ⟨fun taken v s' h hpending => h.realDirectory hs.wellFormed hpending,
    fun question s₁ base hasked hbase => ?_⟩
  obtain ⟨shown, hasked⟩ := asked_of_resolve hpath hmode hasked
  obtain ⟨taken, name, pending, trail, s₀, htaken, hhead, hs₁⟩ := asked_at_head hasked hbase
  -- reading a link leaves a store as it is, so this is the state at the head
  obtain rfl : s₁ = s₀ := hs₁.elim id id
  obtain ⟨handle, d, hcursor, hopen, -, hreal⟩ :=
    hhead.realDirectory hs.wellFormed (List.cons_ne_nil _ _)
  obtain rfl : base = handle := Option.some.inj (congrArg Cursor.handle? hcursor)
  refine ⟨taken, _, d, htaken, hhead, List.cons_ne_nil _ _, rfl, hopen, ?_⟩
  rw [names_trailPath hhead.wellSpelt.trail]
  exact hreal

/-- Behind a link the last name is asked about in the directory that the link
leads to. -/
theorem cursor_stands_at_trail_behind_link :
    let s₁ : Store := { Store.sample with handles := ⟨[(6, 1)], 7⟩ }
    ∃ taken v, Heads Store.answer .exact 4096 (text "../l/f") .sample taken v s₁
      ∧ v.cursor = ⟨some 6⟩ ∧ Store.sample.tree.RealDirectory (names (trailPath v.trail)) 1 := by
  intro s₁
  have hasked : (Primitive.readLink 6 (text "f"), s₁)
      ∈ (resolve .standard .empty (.string (text "../l/f")) (.truth true)).asked Store.answer
          .sample := by decide
  obtain ⟨-, hquestions⟩ := cursor_stands_at_trail .sample Store.sample_reachable .standard .empty
    (.string (text "../l/f")) (.truth true) (.text (text "../l/f")) .exact rfl rfl
  obtain ⟨taken, v, d, -, hhead, -, hcursor, hopen, hreal⟩ := hquestions _ s₁ 6 hasked rfl
  obtain rfl : 1 = d := Option.some.inj hopen
  exact ⟨taken, v, hhead, hcursor, hreal⟩

end PathResolution
