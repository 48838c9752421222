/-
Computations that put questions to a filesystem.

A dialogue is finished, or tells an observer something and goes on, or puts a
question and goes on with the answer. It says nothing about who answers: the
same dialogue runs against a tree in memory, a disk, a filesystem that fails
on a schedule, or any other function that answers questions. What holds for
every answering function holds for every filesystem, whatever it answers and
however its answers change from call to call. `run_bind` takes a run apart
where the dialogue was put together.
-/
import PathResolution.LogEntry
import PathResolution.Primitive

namespace PathResolution

/-- A computation that ends with a value of type `α`. -/
inductive Dialogue (α : Type) where
  | done (value : α)
  | tell (entry : LogEntry) (rest : Dialogue α)
  | ask (question : Primitive) (next : question.Reply → Dialogue α)

namespace Dialogue

variable {α β σ : Type}

-- =========================================================== composition

/-- Goes on with `next` once `d` has ended. -/
def bind (d : Dialogue α) (next : α → Dialogue β) : Dialogue β :=
  match d with
  | .done value => next value
  | .tell entry rest => .tell entry (rest.bind next)
  | .ask question k => .ask question fun reply => (k reply).bind next

instance : Monad Dialogue where
  pure := .done
  bind := bind

/-- Puts one question and ends with its answer. -/
def put (question : Primitive) : Dialogue question.Reply := .ask question .done

-- =============================================================== running

/-- Someone who answers questions and may remember them. -/
abbrev Answering (σ : Type) := (question : Primitive) → σ → question.Reply × σ

/-- What a run leaves: the value, the answering side, and what was told, in
order. -/
structure Outcome (α σ : Type) where
  value : α
  state : σ
  told : List LogEntry

/-- Runs a dialogue; `told` is what was told before, latest first. -/
def runFrom (answer : Answering σ) : Dialogue α → σ → List LogEntry → Outcome α σ
  | .done value, state, told => ⟨value, state, told.reverse⟩
  | .tell entry rest, state, told => rest.runFrom answer state (entry :: told)
  | .ask question next, state, told =>
    let (reply, state) := answer question state
    (next reply).runFrom answer state told

def run (answer : Answering σ) (d : Dialogue α) (state : σ) : Outcome α σ :=
  d.runFrom answer state []

/-- What was told before comes first, and changes nothing else. -/
theorem runFrom_eq (answer : Answering σ) (d : Dialogue α) (state : σ)
    (told : List LogEntry) :
    d.runFrom answer state told =
      ⟨(d.run answer state).value, (d.run answer state).state,
        told.reverse ++ (d.run answer state).told⟩ := by
  induction d generalizing state told with
  | done value => simp [run, runFrom]
  | tell entry rest ih =>
    simp only [run, runFrom]
    rw [ih state (entry :: told), ih state [entry]]
    simp
  | ask question next ih =>
    simp only [run, runFrom]
    rw [ih, ih _ _ []]
    simp

@[simp]
theorem run_done (answer : Answering σ) (value : α) (state : σ) :
    (done value).run answer state = ⟨value, state, []⟩ := rfl

@[simp]
theorem run_tell (answer : Answering σ) (entry : LogEntry) (rest : Dialogue α) (state : σ) :
    (tell entry rest).run answer state =
      ⟨(rest.run answer state).value, (rest.run answer state).state,
        entry :: (rest.run answer state).told⟩ := by
  simp [run, runFrom, runFrom_eq answer rest state [entry]]

@[simp]
theorem run_ask (answer : Answering σ) (question : Primitive)
    (next : question.Reply → Dialogue α) (state : σ) :
    (ask question next).run answer state =
      (next (answer question state).1).run answer (answer question state).2 := rfl

/-- A dialogue with a continuation runs the one and then the other. -/
theorem run_bind (answer : Answering σ) (d : Dialogue α) (next : α → Dialogue β) (state : σ) :
    (d.bind next).run answer state =
      let first := d.run answer state
      let second := (next first.value).run answer first.state
      ⟨second.value, second.state, first.told ++ second.told⟩ := by
  induction d generalizing state with
  | done value => simp [bind]
  | tell entry rest ih => simp [bind, ih]
  | ask question k ih => simp [bind, ih]

-- =============================================================== records

/-- The answering side together with a record of its calls, latest first. -/
structure Recorded (σ : Type) where
  state : σ
  calls : List Call

/-- Answers as before, and keeps a record. -/
def recording (answer : Answering σ) : Answering (Recorded σ) := fun question r =>
  let (reply, state) := answer question r.state
  (reply, ⟨state, ⟨question, reply⟩ :: r.calls⟩)

end Dialogue

end PathResolution
