/-
Handles are opaque.

The numbers of the handles depend on how often something was opened before, and
nothing else does. Two conversations with one tree are followed side by side,
with the handles of the one and of the other in pairs (`Pairs`). As long as
paired handles stand for the same directories, a filesystem answers alike
(`AnswersAlike`), and a resolution never looks at the number of a handle: it only
hands numbers back that it was given. So it goes the same way in both
conversations (`Agree`, with a rule for each way to put dialogues together), ends
with the same value, and tells the same.

The pairs are those that a resolution holds: none before it starts, one while it
takes names, and two in a move, when the new handle is there and the old one has
not been given back yet.
-/
import PathResolution.Filesystem
import PathResolution.Proofs.Handles.Table
import PathResolution.Resolution

namespace PathResolution

open Dialogue (Answering)

-- ================================================================= pairs

/-- Handles of two conversations, in pairs. -/
abbrev Pairs := List (Handle × Handle)

/-- Both opened something, which makes a pair, or both failed in the same way. -/
inductive Opened {σ : Type} (alike : Pairs → σ → σ → Prop) (held : Pairs) :
    Except Fault Handle × σ → Except Fault Handle × σ → Prop
  | opened (h h' : Handle) (s s' : σ) : alike ((h, h') :: held) s s' →
      Opened alike held (.ok h, s) (.ok h', s')
  | failed (fault : Fault) (s s' : σ) : alike held s s' →
      Opened alike held (.error fault, s) (.error fault, s')

theorem Opened.map {σ τ : Type} {alike : Pairs → σ → σ → Prop} {alike' : Pairs → τ → τ → Prop}
    {held : Pairs} {f : σ → τ} (hf : ∀ {held s s'}, alike held s s' → alike' held (f s) (f s'))
    {o o' : Except Fault Handle × σ} (ho : Opened alike held o o') :
    Opened alike' held (o.1, f o.2) (o'.1, f o'.2) := by
  cases ho with
  | opened h h' s s' hs => exact .opened h h' _ _ (hf hs)
  | failed fault s s' hs => exact .failed fault _ _ (hf hs)

/-- In two states that are alike, questions about paired handles are answered
alike. -/
structure AnswersAlike {σ : Type} (answer : Answering σ) (alike : Pairs → σ → σ → Prop) :
    Prop where
  openRoot : ∀ {held s s'}, alike held s s' →
    Opened alike held (answer .openRoot s) (answer .openRoot s')
  openRelative : ∀ {held s s' h h'} (name : Name), alike held s s' → (h, h') ∈ held →
    Opened alike held (answer (.openRelative h name) s) (answer (.openRelative h' name) s')
  readLink : ∀ {held s s' h h'} (name : Name), alike held s s' → (h, h') ∈ held →
    (answer (.readLink h name) s).1 = (answer (.readLink h' name) s').1
      ∧ alike held (answer (.readLink h name) s).2 (answer (.readLink h' name) s').2
  close : ∀ {before after s s' h h'}, alike (before ++ (h, h') :: after) s s' →
    (answer (.close h) s).1 = (answer (.close h') s').1
      ∧ alike (before ++ after) (answer (.close h) s).2 (answer (.close h') s').2
  workingDirectory : ∀ {held s s'}, alike held s s' →
    (answer .workingDirectory s).1 = (answer .workingDirectory s').1
      ∧ alike held (answer .workingDirectory s).2 (answer .workingDirectory s').2

-- ============================================================= agreement

section

variable {α β σ : Type} {answer : Answering σ} {alike : Pairs → σ → σ → Prop} {held : Pairs}

/-- From states that are alike, two dialogues end as `post` says, in states that
are alike, and tell the same. -/
def Agree (answer : Answering σ) (alike : Pairs → σ → σ → Prop) (held : Pairs)
    (post : α → α → Pairs → Prop) (d d' : Dialogue α) : Prop :=
  ∀ s s', alike held s s' → ∃ held',
    post (d.run answer s).value (d'.run answer s').value held'
      ∧ alike held' (d.run answer s).state (d'.run answer s').state
      ∧ (d.run answer s).told = (d'.run answer s').told

namespace Agree

variable {post : α → α → Pairs → Prop}

theorem done {value value' : α} (h : post value value' held) :
    Agree answer alike held post (.done value) (.done value') :=
  fun _ _ hs => ⟨held, h, hs, rfl⟩

theorem tell {d d' : Dialogue α} (entry : LogEntry) (h : Agree answer alike held post d d') :
    Agree answer alike held post (.tell entry d) (.tell entry d') := by
  intro s s' hs
  obtain ⟨held', hpost, hstate, htold⟩ := h s s' hs
  rw [Dialogue.run_tell, Dialogue.run_tell]
  exact ⟨held', hpost, hstate, congrArg (entry :: ·) htold⟩

/-- The rule for dialogues that are put together. -/
theorem bind {mid : β → β → Pairs → Prop} {d d' : Dialogue β} {next next' : β → Dialogue α}
    (h : Agree answer alike held mid d d')
    (hnext : ∀ value value' held', mid value value' held' →
      Agree answer alike held' post (next value) (next' value')) :
    Agree answer alike held post (d.bind next) (d'.bind next') := by
  intro s s' hs
  obtain ⟨mid', hmid, hmiddle, htold⟩ := h s s' hs
  obtain ⟨held', hpost, hstate, htold'⟩ := hnext _ _ mid' hmid _ _ hmiddle
  rw [Dialogue.run_bind, Dialogue.run_bind]
  refine ⟨held', hpost, hstate, ?_⟩
  show _ ++ _ = _ ++ _
  rw [htold, htold']

/-- Dialogues that go on alike after an opening. -/
theorem of_opened {next next' : Except Fault Handle → Dialogue α}
    (hok : ∀ h h', Agree answer alike ((h, h') :: held) post (next (.ok h)) (next' (.ok h')))
    (herror : ∀ fault, Agree answer alike held post (next (.error fault)) (next' (.error fault)))
    {o o' : Except Fault Handle × σ} (ho : Opened alike held o o') :
    ∃ held', post ((next o.1).run answer o.2).value ((next' o'.1).run answer o'.2).value held'
      ∧ alike held' ((next o.1).run answer o.2).state ((next' o'.1).run answer o'.2).state
      ∧ ((next o.1).run answer o.2).told = ((next' o'.1).run answer o'.2).told := by
  cases ho with
  | opened h h' s s' hs => exact hok h h' s s' hs
  | failed fault s s' hs => exact herror fault s s' hs

variable (ha : AnswersAlike answer alike)

include ha

theorem openRoot {next next' : Except Fault Handle → Dialogue α}
    (hok : ∀ h h', Agree answer alike ((h, h') :: held) post (next (.ok h)) (next' (.ok h')))
    (herror : ∀ fault, Agree answer alike held post (next (.error fault)) (next' (.error fault))) :
    Agree answer alike held post (.ask .openRoot next) (.ask .openRoot next') :=
  fun _ _ hs => of_opened hok herror (ha.openRoot hs)

theorem openRelative {h h' : Handle} {name : Name} (hmem : (h, h') ∈ held)
    {next next' : Except Fault Handle → Dialogue α}
    (hok : ∀ h h', Agree answer alike ((h, h') :: held) post (next (.ok h)) (next' (.ok h')))
    (herror : ∀ fault, Agree answer alike held post (next (.error fault)) (next' (.error fault))) :
    Agree answer alike held post (.ask (.openRelative h name) next)
      (.ask (.openRelative h' name) next') :=
  fun _ _ hs => of_opened hok herror (ha.openRelative name hs hmem)

theorem readLink {h h' : Handle} {name : Name} (hmem : (h, h') ∈ held)
    {next next' : Except Fault Text → Dialogue α}
    (hnext : ∀ reply, Agree answer alike held post (next reply) (next' reply)) :
    Agree answer alike held post (.ask (.readLink h name) next)
      (.ask (.readLink h' name) next') := by
  intro s s' hs
  obtain ⟨hreply, hs⟩ := ha.readLink name hs hmem
  rw [Dialogue.run_ask, Dialogue.run_ask, hreply]
  exact hnext _ _ _ hs

theorem close (before after : Pairs) {h h' : Handle} {next next' : Except Fault Unit → Dialogue α}
    (hnext : ∀ reply, Agree answer alike (before ++ after) post (next reply) (next' reply)) :
    Agree answer alike (before ++ (h, h') :: after) post (.ask (.close h) next)
      (.ask (.close h') next') := by
  intro s s' hs
  obtain ⟨hreply, hs⟩ := ha.close hs
  rw [Dialogue.run_ask, Dialogue.run_ask, hreply]
  exact hnext _ _ _ hs

theorem workingDirectory {next next' : Except Fault Text → Dialogue α}
    (hnext : ∀ reply, Agree answer alike held post (next reply) (next' reply)) :
    Agree answer alike held post (.ask .workingDirectory next) (.ask .workingDirectory next') := by
  intro s s' hs
  obtain ⟨hreply, hs⟩ := ha.workingDirectory hs
  rw [Dialogue.run_ask, Dialogue.run_ask, hreply]
  exact hnext _ _ _ hs

end Agree

-- ================================================================ moves

/-- The same outcome, and both cursors hold the one handle of a pair. -/
inductive Moved {ε γ : Type} : Except ε γ × Cursor → Except ε γ × Cursor → Pairs → Prop
  | pair (outcome : Except ε γ) (h h' : Handle) :
      Moved (outcome, ⟨some h⟩) (outcome, ⟨some h'⟩) [(h, h')]

variable (ha : AnswersAlike answer alike) {h h' : Handle} {name : Name}

include ha

/-- The handover: there are two pairs until the older one is given back. -/
theorem land_agree (entry : LogEntry) (new new' : Handle) :
    Agree answer alike [(new, new'), (h, h')] Moved (Cursor.land ⟨some h⟩ entry (.ok new))
      (Cursor.land ⟨some h'⟩ entry (.ok new')) := by
  refine Agree.close ha [(new, new')] [] fun reply => ?_
  cases reply with
  | ok _ => exact Agree.tell entry (Agree.done (.pair _ new new'))
  | error fault => exact Agree.done (.pair _ new new')

theorem move_agree (entry : LogEntry) :
    Agree answer alike [(h, h')] Moved
      (.ask (.openRelative h name) (Cursor.land ⟨some h⟩ entry))
      (.ask (.openRelative h' name) (Cursor.land ⟨some h'⟩ entry)) :=
  Agree.openRelative ha List.mem_cons_self (fun new new' => land_agree ha entry new new')
    fun _ => Agree.done (.pair _ h h')

theorem reset_agree :
    Agree answer alike [(h, h')] Moved (Cursor.reset ⟨some h⟩) (Cursor.reset ⟨some h'⟩) :=
  Agree.openRoot ha (fun new new' => land_agree ha .movedToRoot new new')
    fun _ => Agree.done (.pair _ h h')

theorem cursorReadLink_agree :
    Agree answer alike [(h, h')] Moved (Cursor.readLink ⟨some h⟩ name)
      (Cursor.readLink ⟨some h'⟩ name) :=
  Agree.readLink ha List.mem_cons_self fun _ => Agree.done (.pair _ h h')

-- ================================================================ names

omit ha in
/-- The same progress, and both cursors hold the one handle of a pair. -/
inductive Progressed : Progress → Progress → Pairs → Prop
  | onward (pending trail : List Name) (h h' : Handle) :
      Progressed (.onward ⟨pending, trail, ⟨some h⟩⟩) (.onward ⟨pending, trail, ⟨some h'⟩⟩)
        [(h, h')]
  | arrived (trail : List Name) (h h' : Handle) :
      Progressed (.arrived trail ⟨some h⟩) (.arrived trail ⟨some h'⟩) [(h, h')]
  | stuck (failure : Failure) (h h' : Handle) :
      Progressed (.stuck failure ⟨some h⟩) (.stuck failure ⟨some h'⟩) [(h, h')]

variable {mode : ExistenceMode} {maxLinkSize : Nat} {pending trail : List Name}

omit ha in
theorem afterMove_agree {path : Text} {a a' : Cursor.Answer Unit} (hmoved : Moved a a' held) :
    Agree answer alike held Progressed (afterMove path trail pending a)
      (afterMove path trail pending a') := by
  obtain ⟨outcome, h, h'⟩ := hmoved
  cases outcome with
  | ok _ => exact Agree.done (.onward pending trail h h')
  | error fault => exact Agree.done (.stuck _ h h')

theorem climb_agree :
    Agree answer alike [(h, h')] Progressed (climb ⟨pending, trail, ⟨some h⟩⟩)
      (climb ⟨pending, trail, ⟨some h'⟩⟩) :=
  (move_agree ha .movedUp).bind fun _ _ _ hmoved => afterMove_agree hmoved

theorem commit_agree :
    Agree answer alike [(h, h')] Progressed (commit name ⟨pending, trail, ⟨some h⟩⟩)
      (commit name ⟨pending, trail, ⟨some h'⟩⟩) := by
  unfold commit
  split
  · exact Agree.done (.onward pending (name :: trail) h h')
  · exact (move_agree ha (.movedInto name)).bind fun _ _ _ hmoved => afterMove_agree hmoved

theorem followLink_agree {target : Text} :
    Agree answer alike [(h, h')] Progressed
      (followLink maxLinkSize name target ⟨pending, trail, ⟨some h⟩⟩)
      (followLink maxLinkSize name target ⟨pending, trail, ⟨some h'⟩⟩) := by
  unfold followLink
  split
  · exact Agree.done (.stuck _ h h')
  · split
    · exact Agree.done (.stuck _ h h')
    · split
      · exact Agree.done (.stuck _ h h')
      · refine Agree.tell _ ?_
        split
        · exact (reset_agree ha).bind fun _ _ _ hmoved => afterMove_agree hmoved
        · exact Agree.done (.onward _ trail h h')

theorem afterUnreadable_agree {fault : Fault} :
    Agree answer alike [(h, h')] Progressed
      (afterUnreadable mode name ⟨pending, trail, ⟨some h⟩⟩ fault)
      (afterUnreadable mode name ⟨pending, trail, ⟨some h'⟩⟩ fault) := by
  unfold afterUnreadable
  split
  · exact Agree.done (.stuck _ h h')
  · split
    · exact commit_agree ha
    · split
      · exact Agree.tell _ (Agree.done (.arrived _ h h'))
      · exact Agree.done (.stuck _ h h')

theorem takeName_agree :
    Agree answer alike [(h, h')] Progressed
      (takeName mode maxLinkSize name ⟨pending, trail, ⟨some h⟩⟩)
      (takeName mode maxLinkSize name ⟨pending, trail, ⟨some h'⟩⟩) := by
  unfold takeName
  split
  · exact Agree.done (.onward pending trail h h')
  · split
    · exact climb_agree ha
    · refine (cursorReadLink_agree ha).bind fun a a' held' hmoved => ?_
      obtain ⟨reply, h, h'⟩ := hmoved
      cases reply with
      | ok target => exact followLink_agree ha
      | error fault => exact afterUnreadable_agree ha

theorem takeNames_agree (budget : Nat) :
    Agree answer alike [(h, h')] Moved
      (takeNames mode maxLinkSize budget ⟨pending, trail, ⟨some h⟩⟩)
      (takeNames mode maxLinkSize budget ⟨pending, trail, ⟨some h'⟩⟩) := by
  induction budget generalizing h h' pending trail with
  | zero =>
      cases pending <;> exact Agree.done (.pair _ h h')
  | succ budget ih =>
      cases pending with
      | nil => exact Agree.done (.pair _ h h')
      | cons name pending =>
          refine (takeName_agree ha).bind fun progress progress' held' hprogressed => ?_
          cases hprogressed with
          | onward pending trail h h' => exact ih
          | arrived trail h h' => exact Agree.done (.pair _ h h')
          | stuck failure h h' => exact Agree.done (.pair _ h h')

-- ============================================================ whole paths

theorem leave_agree {a a' : LoopAnswer} (hmoved : Moved a a' held) :
    Agree answer alike held (fun value value' _ => value = value') (leave a) (leave a') := by
  obtain ⟨outcome, h, h'⟩ := hmoved
  refine Agree.close ha [] [] fun reply => ?_
  cases reply with
  | ok _ => exact Agree.done rfl
  | error fault => exact Agree.done rfl

theorem visitNames_agree (limits : Limits) :
    Agree answer alike [] (fun value value' _ => value = value')
      (visitNames mode limits pending) (visitNames mode limits pending) := by
  refine Agree.openRoot ha (fun root root' => ?_) fun fault => Agree.done rfl
  exact (takeNames_agree ha limits.loopBudget).bind fun _ _ _ hmoved => leave_agree ha hmoved

/-- Where resolutions start alike, they go on alike. -/
theorem canonicalPath_agree (limits : Limits) (mode : ExistenceMode) (path : Text) :
    Agree answer alike [] (fun value value' _ => value = value')
      (canonicalPath limits mode path) (canonicalPath limits mode path) := by
  have hvisit : ∀ directory : Text,
      Agree answer alike [] (fun value value' _ => value = value')
        (.tell (.started (quoted path) mode (startingNames path directory).length) <|
          (visitNames mode limits (startingNames path directory)).bind fun answer =>
            .done (answer.mapError (·.reportedAt path)))
        (.tell (.started (quoted path) mode (startingNames path directory).length) <|
          (visitNames mode limits (startingNames path directory)).bind fun answer =>
            .done (answer.mapError (·.reportedAt path))) := by
    intro directory
    refine Agree.tell _ ((visitNames_agree ha limits).bind fun value value' _ heq => ?_)
    obtain rfl : value = value' := heq
    exact Agree.done rfl
  unfold canonicalPath canonicalPathShown startingDirectory
  split
  · exact hvisit []
  · refine Agree.workingDirectory ha fun reply => ?_
    cases reply with
    | ok directory => exact hvisit directory
    | error fault => exact Agree.done rfl

end

-- ================================================================ tables

namespace HandleTable

variable {held : Pairs} {table table' : HandleTable} {d : DirId}

/-- Two tables in which paired handles stand for the same directories. -/
structure Paired (held : Pairs) (table table' : HandleTable) : Prop where
  left : table.WellFormed
  right : table'.WellFormed
  same : ∀ p ∈ held, ∃ d, table.directory? p.1 = some d ∧ table'.directory? p.2 = some d
  nodup_left : (held.map Prod.fst).Nodup
  nodup_right : (held.map Prod.snd).Nodup

theorem Paired.nothing (hleft : table.WellFormed) (hright : table'.WellFormed) :
    Paired [] table table' :=
  ⟨hleft, hright, fun _ hmem => absurd hmem List.not_mem_nil, List.nodup_nil, List.nodup_nil⟩

/-- Two new handles of one directory make a pair. -/
theorem Paired.add (hp : Paired held table table') (d : DirId) :
    Paired ((table.next, table'.next) :: held) (table.add d).2 (table'.add d).2 := by
  have hold : ∀ p ∈ held, p.1 ≠ table.next ∧ p.2 ≠ table'.next := by
    intro p hmem
    obtain ⟨d', hleft, hright⟩ := hp.same p hmem
    exact ⟨ne_of_lt (hp.left.lt_of_directory? hleft), ne_of_lt (hp.right.lt_of_directory? hright)⟩
  refine ⟨hp.left.add d, hp.right.add d, fun p hmem => ?_, ?_, ?_⟩
  · rcases List.mem_cons.mp hmem with rfl | hmem
    · exact ⟨d, hp.left.directory?_add_next d, hp.right.directory?_add_next d⟩
    · obtain ⟨d', hleft, hright⟩ := hp.same p hmem
      exact ⟨d', (directory?_add_of_ne d (hold p hmem).1).trans hleft,
        (directory?_add_of_ne d (hold p hmem).2).trans hright⟩
  · refine List.nodup_cons.mpr ⟨fun hmem => ?_, hp.nodup_left⟩
    obtain ⟨p, hp', heq⟩ := List.mem_map.mp hmem
    exact (hold p hp').1 heq
  · refine List.nodup_cons.mpr ⟨fun hmem => ?_, hp.nodup_right⟩
    obtain ⟨p, hp', heq⟩ := List.mem_map.mp hmem
    exact (hold p hp').2 heq

/-- Both handles of a pair can be closed, and the other pairs stay. -/
theorem Paired.close {before after : Pairs} {h h' : Handle}
    (hp : Paired (before ++ (h, h') :: after) table table') :
    ∃ closed closed', table.close? h = some closed ∧ table'.close? h' = some closed'
      ∧ Paired (before ++ after) closed closed' := by
  obtain ⟨d, hleft, hright⟩ := hp.same (h, h') (by simp)
  have hopen : ∀ {table : HandleTable} {h : Handle}, table.directory? h = some d →
      ∃ closed, table.close? h = some closed := by
    intro table h hd
    exact ⟨_, close?_eq_some_iff.mpr ⟨by rw [hd]; rfl, rfl⟩⟩
  obtain ⟨closed, hclosed⟩ := hopen hleft
  obtain ⟨closed', hclosed'⟩ := hopen hright
  have hleftNodup := hp.nodup_left
  have hrightNodup := hp.nodup_right
  rw [List.map_append, List.map_cons, List.nodup_middle, ← List.map_append] at hleftNodup hrightNodup
  obtain ⟨hleftNew, hleftNodup⟩ := List.nodup_cons.mp hleftNodup
  obtain ⟨hrightNew, hrightNodup⟩ := List.nodup_cons.mp hrightNodup
  refine ⟨closed, closed', hclosed, hclosed', hp.left.close hclosed, hp.right.close hclosed',
    fun p hmem => ?_, hleftNodup, hrightNodup⟩
  have hne : p.1 ≠ h := fun heq => hleftNew (List.mem_map.mpr ⟨p, hmem, heq⟩)
  have hne' : p.2 ≠ h' := fun heq => hrightNew (List.mem_map.mpr ⟨p, hmem, heq⟩)
  obtain ⟨d', hleft', hright'⟩ := hp.same p (by
    rcases List.mem_append.mp hmem with hmem | hmem
    · exact List.mem_append_left _ hmem
    · exact List.mem_append_right _ (List.mem_cons_of_mem _ hmem))
  exact ⟨d', (directory?_close_of_ne hclosed hne).trans hleft',
    (directory?_close_of_ne hclosed' hne').trans hright'⟩

end HandleTable

end PathResolution
