/-
Faults that are planned ahead.

A planned fault strikes the calls of one kind, or only those about one name,
after it has let a number of them pass. A call that is struck fails before it
does anything: a handle that cannot be closed stays open.
-/
import PathResolution.Dialogue

namespace PathResolution

/-- A fault and the calls it strikes. -/
structure Injection where
  kind : Primitive.Kind
  /-- The only name it strikes, if it has one. -/
  name : Option Name
  /-- How many more calls it lets pass. -/
  allowed : Nat
  fault : Fault
  deriving Repr

namespace Injection

def concerns (i : Injection) (question : Primitive) : Bool :=
  i.kind == question.kind && (i.name.isNone || i.name == question.name?)

/-- What the planned faults do to a call: the first that concerns it and lets
nothing more pass strikes it, and those before that one have let it pass. -/
def strike (question : Primitive) : List Injection → Option Fault × List Injection
  | [] => (none, [])
  | i :: rest =>
    if i.concerns question then
      match i.allowed with
      | 0 => (some i.fault, i :: rest)
      | allowed + 1 =>
        let (fault, rest) := strike question rest
        (fault, { i with allowed } :: rest)
    else
      let (fault, rest) := strike question rest
      (fault, i :: rest)

end Injection

/-- The answering side together with the faults that are planned. -/
structure Injected (σ : Type) where
  state : σ
  planned : List Injection

/-- Answers as before, except for the calls that are struck. -/
def injecting {σ : Type} (answer : Dialogue.Answering σ) : Dialogue.Answering (Injected σ) :=
  fun question s =>
    let (fault, planned) := Injection.strike question s.planned
    match fault with
    | some fault => (.error fault, { s with planned })
    | none =>
      let (reply, state) := answer question s.state
      (reply, ⟨state, planned⟩)

end PathResolution
