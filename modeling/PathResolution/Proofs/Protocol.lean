/-
What can be said of a dialogue before anyone answers it.

A protocol is kept by the side that asks. From its notes it reads off which
questions are in order and which replies are to be expected, and it takes
every reply down. A dialogue follows a protocol if each of its questions is in
order, and its end is as promised, for all replies that are to be expected
(`Follows`); nothing else is said about the side that answers.

`Follows.bind` puts dialogues together as `Dialogue.bind` does. `Follows.run`
is where an answering side comes in: if it honours the protocol, then the run
ends as the dialogue promises, and every question that it puts (`asked`) is in
order at that moment (`Follows.asked`). One dialogue can follow several
protocols, and each is one view of the same conversation: what can be promised
against any filesystem whatever (`Protocol.anything`), which handles are held,
or which directories the handles stand for.
-/
import PathResolution.Dialogue

namespace PathResolution

-- ============================================================ protocols

/-- The rules of a conversation, by notes of type `κ`. -/
structure Protocol (κ : Type) where
  /-- The questions that are in order. -/
  permits : κ → Primitive → Prop
  /-- The replies that are to be expected. -/
  expects : κ → (question : Primitive) → question.Reply → Prop
  /-- The notes after a reply. -/
  note : κ → (question : Primitive) → question.Reply → κ

namespace Protocol

variable {κ σ : Type}

/-- Every question is in order, every reply is to be expected, and nothing is
noted. -/
def anything : Protocol Unit := ⟨fun _ _ => True, fun _ _ _ => True, fun _ _ _ => ()⟩

/-- Questions that are in order get replies that are to be expected;
`relates` says which notes fit which states of the answering side. -/
def Honoured (p : Protocol κ) (answer : Dialogue.Answering σ)
    (relates : σ → κ → Prop) : Prop :=
  ∀ s notes question, relates s notes → p.permits notes question →
    p.expects notes question (answer question s).1
      ∧ relates (answer question s).2 (p.note notes question (answer question s).1)

end Protocol

namespace Dialogue

variable {α β κ σ : Type} {p : Protocol κ}

-- ================================================================ asking

/-- The questions that a run puts, in order, each with the state in which the
answering side is asked. -/
def asked (answer : Answering σ) : Dialogue α → σ → List (Primitive × σ)
  | .done _, _ => []
  | .tell _ rest, s => rest.asked answer s
  | .ask question next, s =>
    (question, s) :: (next (answer question s).1).asked answer (answer question s).2

/-- A dialogue with a continuation asks what the one asks and then the other. -/
theorem asked_bind (answer : Answering σ) (d : Dialogue α) (next : α → Dialogue β) (s : σ) :
    (d.bind next).asked answer s
      = d.asked answer s ++ (next (d.run answer s).value).asked answer (d.run answer s).state := by
  induction d generalizing s with
  | done value => rfl
  | tell entry rest ih =>
      rw [run_tell]
      exact ih s
  | ask question k ih =>
      rw [run_ask]
      exact congrArg _ (ih _ _)

-- ============================================================= following

/-- Each question is in order, and the end is as `post` says, whatever the
replies are among those that are to be expected. -/
def Follows (p : Protocol κ) (post : α → κ → Prop) : Dialogue α → κ → Prop
  | .done value, notes => post value notes
  | .tell _ rest, notes => rest.Follows p post notes
  | .ask question next, notes =>
    p.permits notes question ∧ ∀ reply, p.expects notes question reply →
      (next reply).Follows p post (p.note notes question reply)

/-- A weaker promise is kept as well. -/
theorem Follows.mono {post post' : α → κ → Prop} {d : Dialogue α} {notes : κ}
    (h : d.Follows p post notes) (himp : ∀ value notes, post value notes → post' value notes) :
    d.Follows p post' notes := by
  induction d generalizing notes with
  | done value => exact himp value notes h
  | tell entry rest ih => exact ih h
  | ask question next ih =>
      exact ⟨h.1, fun reply hreply => ih reply (h.2 reply hreply)⟩

/-- A continuation has to follow the protocol from where the first dialogue
ends. -/
theorem follows_bind {post : β → κ → Prop} {d : Dialogue α} {next : α → Dialogue β}
    {notes : κ} :
    (d.bind next).Follows p post notes ↔
      d.Follows p (fun value notes => (next value).Follows p post notes) notes := by
  induction d generalizing notes with
  | done value => rfl
  | tell entry rest ih => exact ih
  | ask question k ih =>
      constructor
      · intro h
        exact ⟨h.1, fun reply hreply => (ih reply).mp (h.2 reply hreply)⟩
      · intro h
        exact ⟨h.1, fun reply hreply => (ih reply).mpr (h.2 reply hreply)⟩

/-- The rule for dialogues that are put together: what the first one promises
is what the continuation starts from. -/
theorem Follows.bind {mid : α → κ → Prop} {post : β → κ → Prop} {d : Dialogue α}
    {next : α → Dialogue β} {notes : κ} (h : d.Follows p mid notes)
    (hnext : ∀ value notes, mid value notes → (next value).Follows p post notes) :
    (d.bind next).Follows p post notes :=
  follows_bind.mpr (h.mono hnext)

/-- The promise of a dialogue holds of every run against a side that honours
the protocol. -/
theorem Follows.run {post : α → κ → Prop} {answer : Answering σ}
    {relates : σ → κ → Prop} (honoured : p.Honoured answer relates)
    {d : Dialogue α} {s : σ} {notes : κ} (h : d.Follows p post notes)
    (hs : relates s notes) :
    ∃ notes', post (d.run answer s).value notes' ∧ relates (d.run answer s).state notes' := by
  induction d generalizing s notes with
  | done value => exact ⟨notes, h, hs⟩
  | tell entry rest ih =>
      rw [run_tell]
      exact ih h hs
  | ask question next ih =>
      obtain ⟨hreply, hs'⟩ := honoured s notes question hs h.1
      rw [run_ask]
      exact ih _ (h.2 _ hreply) hs'

/-- A question that is put in a run is in order, by the notes at that moment. -/
theorem Follows.asked {post : α → κ → Prop} {answer : Answering σ}
    {relates : σ → κ → Prop} (honoured : p.Honoured answer relates)
    {d : Dialogue α} {s : σ} {notes : κ} (h : d.Follows p post notes) (hs : relates s notes)
    {question : Primitive} {s' : σ} (hasked : (question, s') ∈ d.asked answer s) :
    ∃ notes', relates s' notes' ∧ p.permits notes' question := by
  induction d generalizing s notes with
  | done value => cases hasked
  | tell entry rest ih => exact ih h hs hasked
  | ask question next ih =>
      rcases List.mem_cons.mp hasked with heq | hasked
      · obtain ⟨rfl, rfl⟩ := Prod.mk.inj heq
        exact ⟨notes, hs, h.1⟩
      · obtain ⟨hreply, hs'⟩ := honoured s notes question hs h.1
        exact ih _ (h.2 _ hreply) hs' hasked

/-- What a dialogue promises against anything holds of every run. -/
theorem Follows.run_anything {post : α → Unit → Prop} {d : Dialogue α}
    (h : d.Follows Protocol.anything post ()) (answer : Answering σ) (s : σ) :
    post (d.run answer s).value () := by
  have honoured : Protocol.anything.Honoured answer fun _ _ => True :=
    fun _ _ _ _ _ => ⟨trivial, trivial⟩
  obtain ⟨_, hpost, -⟩ := h.run honoured (s := s) trivial
  exact hpost

end Dialogue

end PathResolution
