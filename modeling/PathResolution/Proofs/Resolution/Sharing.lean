/-
Resolutions that share a filesystem.

Any number of dialogues take turns on one answering side, and a schedule says
whose turn it is (`Gathering.play`). In a turn a dialogue tells one thing, or
puts one question and gets its answer; between two of its turns the others may
open and close whatever they like.

Each resolution has a view of its own, and what it comes to was proved against
its view alone. So all that there is to show is that the views stay apart
(`Apart`): every handle is owned by at most one resolution, none of them by
those who opened handles before, and what one of them asks changes nothing that
another one sees (`Apart.answer`). In the end nobody owns anything, and the
table of handles holds what it held before.
-/
import Mathlib.Logic.Function.Basic
import PathResolution.Proofs.Resolution.Faithful

namespace PathResolution

-- ================================================================= turns

/-- Goes on by one step: tells one thing, or puts one question. -/
def Dialogue.turn {α σ : Type} (answer : Dialogue.Answering σ) :
    Dialogue α → σ → Dialogue α × σ
  | .done value, s => (.done value, s)
  | .tell _ rest, s => (rest, s)
  | .ask question next, s =>
    let (reply, s) := answer question s
    (next reply, s)

/-- What a dialogue has ended with, if it has ended. -/
def Dialogue.value? {α : Type} : Dialogue α → Option α
  | .done value => some value
  | .tell _ _ | .ask _ _ => none

theorem Dialogue.value?_eq_some_iff {α : Type} {d : Dialogue α} {value : α} :
    d.value? = some value ↔ d = .done value := by
  cases d <;> simp [value?]

/-- Dialogues with one answering side. -/
structure Gathering (ι α σ : Type) where
  state : σ
  dialogues : ι → Dialogue α

namespace Gathering

variable {ι α σ : Type} [DecidableEq ι] {answer : Dialogue.Answering σ}

/-- It is this dialogue's turn. -/
def turn (answer : Dialogue.Answering σ) (g : Gathering ι α σ) (i : ι) : Gathering ι α σ :=
  let after := (g.dialogues i).turn answer g.state
  ⟨after.2, Function.update g.dialogues i after.1⟩

/-- The dialogues take turns in this order. -/
def play (answer : Dialogue.Answering σ) (schedule : List ι) (g : Gathering ι α σ) :
    Gathering ι α σ :=
  schedule.foldl (turn answer) g

variable {g : Gathering ι α σ} {i : ι}

theorem turn_of_done {value : α} (h : g.dialogues i = .done value) : g.turn answer i = g := by
  simp only [turn, h, Dialogue.turn]
  rw [← h, Function.update_eq_self]

theorem turn_of_tell {entry : LogEntry} {rest : Dialogue α} (h : g.dialogues i = .tell entry rest) :
    g.turn answer i = ⟨g.state, Function.update g.dialogues i rest⟩ := by
  simp only [turn, h, Dialogue.turn]

theorem turn_of_ask {question : Primitive} {next : question.Reply → Dialogue α}
    (h : g.dialogues i = .ask question next) :
    g.turn answer i = ⟨(answer question g.state).2,
      Function.update g.dialogues i (next (answer question g.state).1)⟩ := by
  simp only [turn, h, Dialogue.turn]

/-- A dialogue ends if it gets enough turns in a row. -/
theorem exists_ended (answer : Dialogue.Answering σ) (g : Gathering ι α σ) (i : ι) :
    ∃ turns, ((g.play answer (List.replicate turns i)).dialogues i).value?.isSome := by
  generalize hd : g.dialogues i = d
  induction d generalizing g with
  | done value =>
      refine ⟨0, ?_⟩
      show (g.dialogues i).value?.isSome
      rw [hd]
      rfl
  | tell entry rest ih =>
      have hrest : (g.turn answer i).dialogues i = rest := by
        rw [turn_of_tell hd]
        exact Function.update_self ..
      obtain ⟨turns, h⟩ := ih _ hrest
      exact ⟨turns + 1, h⟩
  | ask question next ih =>
      have hnext : (g.turn answer i).dialogues i = next (answer question g.state).1 := by
        rw [turn_of_ask hd]
        exact Function.update_self ..
      obtain ⟨turns, h⟩ := ih _ _ hnext
      exact ⟨turns + 1, h⟩

end Gathering

-- ================================================================ notes

section

variable {t : Tree} {w : Text} {view : View} {question : Primitive} {reply : question.Reply}
  {h : Handle}

theorem note_of_opened (hpermits : (treeProtocol t w).permits view question)
    (hexpects : (treeProtocol t w).expects view question reply)
    (ho : Call.opened? ⟨question, reply⟩ = some h) :
    ∃ d, (treeProtocol t w).note view question reply = view.set h (some d) := by
  cases question with
  | openRoot =>
      obtain ⟨new, rfl, -⟩ := hexpects
      obtain rfl : new = h := Option.some.inj ho
      exact ⟨Tree.root, rfl⟩
  | openRelative base name =>
      obtain ⟨d, hd⟩ := Option.isSome_iff_exists.mp hpermits
      obtain ⟨hfails, hopens⟩ := hexpects d hd
      cases hfound : t.opens d name with
      | error fault =>
          rw [hfails fault hfound] at ho
          cases ho
      | ok c =>
          obtain ⟨new, rfl, -⟩ := hopens c hfound
          obtain rfl : new = h := Option.some.inj ho
          refine ⟨c, ?_⟩
          show view.set new ((view base).bind fun d => (t.opens d name).toOption) = _
          rw [hd, Option.bind_some, hfound]
          rfl
  | readLink base name => cases ho
  | close handle => cases ho
  | workingDirectory => cases ho

theorem note_otherwise (ho : Call.opened? ⟨question, reply⟩ = none)
    (hc : ∀ h, question ≠ .close h) : (treeProtocol t w).note view question reply = view := by
  cases question with
  | openRoot =>
      cases reply with
      | ok new => cases ho
      | error fault => rfl
  | openRelative base name =>
      cases reply with
      | ok new => cases ho
      | error fault => rfl
  | readLink base name => rfl
  | close handle => exact absurd rfl (hc handle)
  | workingDirectory => rfl

end

-- ============================================================= apartness

/-- Askers with these views have asked a store since it was `start`. -/
structure Apart {ι : Type} (start s : Store) (views : ι → View) : Prop where
  tree_eq : s.tree = start.tree
  workingDirectory_eq : s.workingDirectory = start.workingDirectory
  wellFormed : s.handles.WellFormed
  /-- What is owned is open. -/
  seen : ∀ i h d, views i h = some d → s.handles.directory? h = some d
  /-- Nothing is owned by two. -/
  apart : ∀ i j h, i ≠ j → (views i h).isSome → views j h = none
  /-- What was open before is still open, in the old order. -/
  kept : s.handles.opened.filter (fun e => e.1 < start.handles.next) = start.handles.opened
  /-- What is open and was not before is owned. -/
  owned : ∀ e ∈ s.handles.opened, e.1 < start.handles.next ∨ ∃ i, (views i e.1).isSome
  /-- What is owned was not open before. -/
  later : ∀ i h, (views i h).isSome → start.handles.next ≤ h
  next_le : start.handles.next ≤ s.handles.next

section

variable {ι : Type} {start s : Store} {views : ι → View} {i : ι} {h : Handle} {view : View}

/-- At the start nobody owns anything. -/
theorem apart_nothing (hs : start.handles.WellFormed) :
    Apart start start fun _ : ι => View.nothing where
  tree_eq := rfl
  workingDirectory_eq := rfl
  wellFormed := hs
  seen _ _ _ h := nomatch h
  apart _ _ _ _ h := nomatch h
  kept := List.filter_eq_self.mpr fun e he => decide_eq_true (hs.lt_next e he)
  owned e he := .inl (hs.lt_next e he)
  later _ _ h := nomatch h
  next_le := le_refl _

namespace Apart

theorem shows (ha : Apart start s views) (i : ι) :
    s.Shows start.tree start.workingDirectory (views i) :=
  ⟨ha.tree_eq, ha.workingDirectory_eq, ha.wellFormed, ha.seen i⟩

theorem lt_next (ha : Apart start s views) (howned : (views i h).isSome) :
    h < s.handles.next := by
  obtain ⟨d, hd⟩ := Option.isSome_iff_exists.mp howned
  exact ha.wellFormed.lt_of_directory? (ha.seen i h d hd)

theorem next_notOwned (ha : Apart start s views) (i : ι) : views i s.handles.next = none := by
  rw [← Option.not_isSome_iff_eq_none]
  exact fun howned => absurd (ha.lt_next howned) (lt_irrefl _)

/-- When nobody owns anything, the store is as it was at the start. -/
theorem state_eq (ha : Apart start s views) (hnothing : ∀ i, views i = .nothing) :
    s = { start with handles := { start.handles with next := s.handles.next } } := by
  obtain ⟨tree, ⟨opened, next⟩, w⟩ := s
  obtain rfl : tree = start.tree := ha.tree_eq
  obtain rfl : w = start.workingDirectory := ha.workingDirectory_eq
  have hall : ∀ e ∈ opened, decide (e.1 < start.handles.next) = true := by
    intro e he
    rcases ha.owned e he with hlt | ⟨i, howned⟩
    · exact decide_eq_true hlt
    · rw [hnothing i] at howned
      cases howned
  obtain rfl : opened = start.handles.opened := by
    rw [← ha.kept, List.filter_eq_self.mpr hall]
  rfl

variable [DecidableEq ι]

/-- What is owned after one of the askers opened or closed a handle. -/
theorem update_set_eq (views : ι → View) (i : ι) (h : Handle) (o : Option DirId) (j : ι)
    (other : Handle) :
    Function.update views i ((views i).set h o) j other
      = if j = i ∧ other = h then o else views j other := by
  by_cases hj : j = i
  · subst hj
    rw [Function.update_self]
    by_cases hother : other = h
    · rw [if_pos ⟨rfl, hother⟩, hother, View.set_self]
    · rw [if_neg fun hboth => hother hboth.2, View.set_of_ne hother]
  · rw [Function.update_of_ne hj, if_neg fun hboth => hj hboth.1]

/-- One of the askers opens a handle. -/
theorem add (ha : Apart start s views) (i : ι) (d : DirId) :
    Apart start { s with handles := (s.handles.add d).2 }
      (Function.update views i ((views i).set s.handles.next (some d))) where
  tree_eq := ha.tree_eq
  workingDirectory_eq := ha.workingDirectory_eq
  wellFormed := ha.wellFormed.add d
  seen := by
    intro j h c hc
    rw [update_set_eq] at hc
    split at hc
    · next hnew =>
      rw [hnew.2, ← hc]
      exact ha.wellFormed.directory?_add_next d
    · have hlt := ha.lt_next (i := j) (by rw [hc]; rfl)
      exact (HandleTable.directory?_add_of_ne d hlt.ne).trans (ha.seen j h c hc)
  apart := by
    intro j k h hne howned
    rw [update_set_eq] at howned ⊢
    split at howned
    · next hnew =>
      rw [if_neg fun hk => hne (hnew.1.trans hk.1.symm), hnew.2]
      exact ha.next_notOwned k
    · rw [if_neg fun hk => (ha.lt_next howned).ne hk.2]
      exact ha.apart j k h hne howned
  kept := by
    have hnew : [(s.handles.next, d)].filter (fun e => e.1 < start.handles.next) = [] :=
      List.filter_cons_of_neg (by simpa using ha.next_le)
    show (s.handles.opened ++ [(s.handles.next, d)]).filter _ = _
    rw [List.filter_append, ha.kept, hnew, List.append_nil]
  owned := by
    intro e he
    rcases List.mem_append.mp he with he | he
    · refine (ha.owned e he).imp id fun ⟨j, hj⟩ => ⟨j, ?_⟩
      rw [update_set_eq]
      split
      · rfl
      · exact hj
    · obtain rfl := List.mem_singleton.mp he
      refine .inr ⟨i, ?_⟩
      rw [update_set_eq, if_pos ⟨rfl, rfl⟩]
      rfl
  later := by
    intro j h howned
    rw [update_set_eq] at howned
    split at howned
    · next hnew => exact hnew.2 ▸ ha.next_le
    · exact ha.later j h howned
  next_le := ha.next_le.trans (Int.lt_succ _).le

/-- One of the askers closes a handle of its own. -/
theorem close (ha : Apart start s views) {closed : HandleTable} (howned : (views i h).isSome)
    (hc : s.handles.close? h = some closed) :
    Apart start { s with handles := closed } (Function.update views i ((views i).set h none)) where
  tree_eq := ha.tree_eq
  workingDirectory_eq := ha.workingDirectory_eq
  wellFormed := ha.wellFormed.close hc
  seen := by
    intro j other c hview
    rw [update_set_eq] at hview
    split at hview
    · cases hview
    · next hother =>
      have hne : other ≠ h := by
        rintro rfl
        have hj : j ≠ i := fun hj => hother ⟨hj, rfl⟩
        rw [ha.apart i j other (Ne.symm hj) howned] at hview
        cases hview
      exact (HandleTable.directory?_close_of_ne hc hne).trans (ha.seen j other c hview)
  apart := by
    intro j k other hne hj
    rw [update_set_eq] at hj ⊢
    split at hj
    · cases hj
    · split
      · rfl
      · exact ha.apart j k other hne hj
  kept := by
    obtain ⟨-, rfl⟩ := HandleTable.close?_eq_some_iff.mp hc
    show ((s.handles.opened.filter _).filter _) = _
    rw [← ha.kept, List.filter_filter]
    refine List.filter_congr fun e _ => ?_
    by_cases hlt : e.1 < start.handles.next
    · have hne : e.1 ≠ h := fun heq => absurd (ha.later i h howned) (not_le.mpr (heq ▸ hlt))
      simp [hlt, hne]
    · simp [hlt]
  owned := by
    obtain ⟨-, rfl⟩ := HandleTable.close?_eq_some_iff.mp hc
    intro e he
    obtain ⟨he, hne⟩ := List.mem_filter.mp he
    refine (ha.owned e he).imp id fun ⟨j, hj⟩ => ⟨j, ?_⟩
    rw [update_set_eq, if_neg fun hboth => by simp [hboth.2] at hne]
    exact hj
  later := by
    intro j other hj
    rw [update_set_eq] at hj
    split at hj
    · cases hj
    · exact ha.later j other hj
  next_le := by
    show start.handles.next ≤ closed.next
    rw [HandleTable.next_closed hc]
    exact ha.next_le

/-- What one asker asks in its own right keeps all of them apart. -/
theorem answer (ha : Apart start s views) (i : ι) {question : Primitive}
    (hpermits : (treeProtocol start.tree start.workingDirectory).permits (views i) question) :
    Apart start (Store.answer question s).2 (Function.update views i
      ((treeProtocol start.tree start.workingDirectory).note (views i) question
        (Store.answer question s).1)) := by
  obtain ⟨hexpects, hshows⟩ := Store.honours_tree _ _ s (views i) question (ha.shows i) hpermits
  rcases Call.trichotomy ⟨question, (Store.answer question s).1⟩ with
    ⟨h, ho, -⟩ | ⟨h, reply, heq⟩ | ⟨ho, hc, -⟩
  · obtain ⟨d, hnote⟩ := note_of_opened hpermits hexpects ho
    obtain ⟨rfl, c, hs⟩ := Store.answer_of_opened ho
    rw [hnote, hs] at hshows ⊢
    -- what the asker takes the handle for is what it was opened for
    have hd := hshows.seen _ d (View.set_self _ _)
    obtain rfl : d = c := Option.some.inj (hd.symm.trans (ha.wellFormed.directory?_add_next c))
    exact ha.add i d
  · obtain ⟨rfl, -⟩ := Call.mk.inj heq
    cases hc : s.handles.close? h with
    | none =>
        obtain ⟨d, hd⟩ := Option.isSome_iff_exists.mp hpermits
        have hopen := ha.seen i h d hd
        rw [HandleTable.close?_eq_none_iff.mp hc] at hopen
        cases hopen
    | some closed =>
        rw [Store.answer_close_of_some hc]
        exact ha.close hpermits hc
  · have hnoClose : ∀ h, question ≠ .close h := by
      rintro h rfl
      cases hc
    rw [note_otherwise ho hnoClose, Store.answer_otherwise ho hnoClose, Function.update_eq_self]
    exact ha

end Apart

-- ================================================================== runs

/-- Every dialogue comes to its own end, and owns nothing then. -/
def Keeps {α : Type} (start : Store) (outcome : ι → α) (g : Gathering ι α Store)
    (views : ι → View) : Prop :=
  Apart start g.state views ∧ ∀ i,
    (g.dialogues i).Follows (treeProtocol start.tree start.workingDirectory)
      (fun a view => a = outcome i ∧ view = .nothing) (views i)

variable [DecidableEq ι] {α : Type} {outcome : ι → α} {g : Gathering ι α Store}

/-- One dialogue goes on, and the others stay where they are. -/
theorem follows_update {dialogues : ι → Dialogue α} {d : Dialogue α}
    {p : Protocol View} {post : ι → α → View → Prop}
    (hfollows : ∀ j, (dialogues j).Follows p (post j) (views j)) (hi : d.Follows p (post i) view)
    (j : ι) :
    (Function.update dialogues i d j).Follows p (post j) (Function.update views i view j) := by
  by_cases hj : j = i
  · subst hj
    rw [Function.update_self, Function.update_self]
    exact hi
  · rw [Function.update_of_ne hj, Function.update_of_ne hj]
    exact hfollows j

theorem Keeps.turn (hk : Keeps start outcome g views) (i : ι) :
    ∃ views, Keeps start outcome (g.turn Store.answer i) views := by
  obtain ⟨ha, hfollows⟩ := hk
  have hi := hfollows i
  cases hd : g.dialogues i with
  | done value =>
      rw [Gathering.turn_of_done hd]
      exact ⟨views, ha, hfollows⟩
  | tell entry rest =>
      rw [Gathering.turn_of_tell hd]
      rw [hd] at hi
      have hrest := follows_update hfollows (show rest.Follows _ _ (views i) from hi)
      rw [Function.update_eq_self] at hrest
      exact ⟨views, ha, hrest⟩
  | ask question next =>
      rw [Gathering.turn_of_ask hd]
      rw [hd] at hi
      obtain ⟨hpermits, hnext⟩ := hi
      obtain ⟨hexpects, -⟩ := Store.honours_tree _ _ _ _ question (ha.shows i) hpermits
      exact ⟨_, ha.answer i hpermits, follows_update hfollows (hnext _ hexpects)⟩

theorem Keeps.play (schedule : List ι) (hk : Keeps start outcome g views) :
    ∃ views, Keeps start outcome (g.play Store.answer schedule) views := by
  induction schedule generalizing g views with
  | nil => exact ⟨views, hk⟩
  | cons i schedule ih =>
      obtain ⟨views, hk⟩ := hk.turn i
      exact ih hk

end

-- ============================================================ resolutions

/-- What one resolution is about. -/
structure Request where
  limits : Limits
  env : Environment
  path : Value
  exact : Value

def Request.dialogue (r : Request) : Dialogue (Except Failure PathArgument) :=
  resolve r.limits r.env r.path r.exact

/-- A resolution comes to what the tree determines, and owns nothing
afterwards. -/
theorem Request.follows_tree {t : Tree} {w : Text} (wf : t.WellFormed) (r : Request) :
    ∃ outcome, r.dialogue.Follows (treeProtocol t w)
      (fun a view => a = outcome ∧ view = .nothing) .nothing := by
  have hform : ∀ (shown path : Text) (mode : ExistenceMode)
      (form : Except Failure Text → Except Failure PathArgument), ∃ outcome,
        ((canonicalPathShown shown r.limits mode path).bind fun a => .done (form a)).Follows
          (treeProtocol t w) (fun a view => a = outcome ∧ view = .nothing) .nothing := by
    intro shown path mode form
    refine ⟨form (t.canonical w r.limits mode path),
      (canonicalPathShown_follows_tree wf shown r.limits mode path).bind fun a view h => ?_⟩
    exact ⟨congrArg form h.1, h.2⟩
  unfold dialogue resolve
  cases r.path.path? with
  | error e => exact ⟨_, rfl, rfl⟩
  | ok argument =>
      cases r.exact.mode? r.env with
      | error e => exact ⟨_, rfl, rfl⟩
      | ok mode =>
          cases argument with
          | text path => exact hform _ _ _ _
          | bytes path => exact hform _ _ _ _

/-- What a resolution comes to on a store depends on its tree and its working
directory, and not on the handles that are open. -/
theorem Request.run_eq {start : Store} {r : Request} {outcome : Except Failure PathArgument}
    (h : r.dialogue.Follows (treeProtocol start.tree start.workingDirectory)
      (fun a view => a = outcome ∧ view = .nothing) .nothing)
    {handles : HandleTable} (wf : handles.WellFormed) :
    (r.dialogue.run Store.answer { start with handles }).value = outcome := by
  obtain ⟨view, ⟨hvalue, -⟩, -⟩ := h.run (Store.honours_tree _ _)
    (Store.shows_nothing (s := { start with handles }) wf)
  exact hvalue

/-- Resolutions that share a store, in any order of their turns: each one that
has ended came to what it comes to alone, whatever handles are open then; each
of them can end; and when all have ended, the store is as it was before, but for
the number of the next handle. -/
theorem resolutions_share {ι : Type} [DecidableEq ι] {start : Store} (hs : start.Reachable)
    (requests : ι → Request) (schedule : List ι) :
    let g : Gathering ι (Except Failure PathArgument) Store :=
      ⟨start, fun i => (requests i).dialogue⟩
    let after := g.play Store.answer schedule
    (∀ i value, (after.dialogues i).value? = some value →
        ∀ handles : HandleTable, handles.WellFormed →
          value = ((requests i).dialogue.run Store.answer { start with handles }).value)
      ∧ (∀ i, ∃ turns,
          ((after.play Store.answer (List.replicate turns i)).dialogues i).value?.isSome)
      ∧ ((∀ i, (after.dialogues i).value?.isSome) →
          start.handles.next ≤ after.state.handles.next ∧
          after.state = { start with
            handles := { start.handles with next := after.state.handles.next } }) := by
  intro g after
  choose outcome houtcome using fun i => (requests i).follows_tree hs.wellFormed.tree
    (w := start.workingDirectory)
  have hstart : Keeps start outcome g fun _ => .nothing :=
    ⟨apart_nothing hs.wellFormed.handles, houtcome⟩
  obtain ⟨views, hapart, hfollows⟩ := hstart.play schedule
  have hended : ∀ i value, (after.dialogues i).value? = some value →
      value = outcome i ∧ views i = .nothing := by
    intro i value hvalue
    have h := hfollows i
    rw [Dialogue.value?_eq_some_iff.mp hvalue] at h
    exact h
  refine ⟨fun i value hvalue handles wf => ?_, Gathering.exists_ended _ after, fun hall => ?_⟩
  · rw [(hended i value hvalue).1, Request.run_eq (houtcome i) wf]
  · refine ⟨hapart.next_le, hapart.state_eq fun i => ?_⟩
    obtain ⟨value, hvalue⟩ := Option.isSome_iff_exists.mp (hall i)
    exact (hended i value hvalue).2

/-- One resolution follows a link and moves up, and the other comes and goes
meanwhile. -/
theorem resolutions_share_in_turns :
    let requests : Bool → Request := fun first =>
      ⟨.standard, .empty, .string (text (if first then "/l/../l" else ".")), .truth true⟩
    let schedule := (List.replicate 20 [true, false]).flatten
    let after := (⟨.sample, fun i => (requests i).dialogue⟩ : Gathering _ _ _).play Store.answer
      schedule
    (after.dialogues true).value? = some (.ok (.text (text "/d")))
      ∧ .ok (.text (text "/d")) = ((requests true).dialogue.run Store.answer
          { Store.sample with handles := ⟨[], 100⟩ }).value
      ∧ after.state = { Store.sample with
          handles := { Store.sample.handles with next := after.state.handles.next } } := by
  intro requests schedule after
  obtain ⟨hvalue, -, hstate⟩ := resolutions_share Store.sample_reachable requests schedule
  have hdone : (after.dialogues true).value? = some (.ok (.text (text "/d"))) := by
    decide +kernel
  have hall : ∀ i, (after.dialogues i).value?.isSome := by decide +kernel
  refine ⟨hdone, hvalue true _ hdone ⟨[], 100⟩ ⟨nofun, List.nodup_nil⟩, ?_⟩
  rw [← (hstate hall).2]

end PathResolution
