/-
Undoing patches.

A patch remembers what was installed when it was made, and undoing it puts that
back, whatever is installed by then. So the order matters in which patches are
undone. Of those that stand at one time, only the oldest remembers the function
that was there before; the others remember the one that resolves (`Stacked`). As
long as the oldest is undone after all the others, the function that resolves
stays installed until then, and the one from before is back afterwards. If the
oldest is undone while others stand, the function from before is installed at
once, and it is gone again when the others are undone
(`patches_kept_iff_oldest_last`, `oldest_patch_undone_first`).
-/
import PathResolution.Session

namespace PathResolution

-- ================================================================= runs

/-- A program and its patches that have not been undone, the oldest first. -/
structure Patched where
  session : Session
  standing : List Patch

namespace Patched

inductive Event where
  | patch
  /-- Undo one of the patches that stand, by its place among them. -/
  | undo (place : Nat)
  /-- Anything else that the program does. It installs nothing. -/
  | elsewhere (change : Session → Session) (keeps : ∀ s, (change s).installed = s.installed)

/-- A patch stands from when it is made until it is undone. -/
def step? (p : Patched) : Event → Option Patched
  | .patch => some ⟨p.session.patch.2, p.standing ++ [p.session.patch.1]⟩
  | .undo place =>
    p.standing[place]?.map fun patch => ⟨p.session.undo patch, p.standing.eraseIdx place⟩
  | .elsewhere change _ => some { p with session := change p.session }

def run? : Patched → List Event → Option Patched
  | p, [] => some p
  | p, event :: rest => (p.step? event).bind fun q => q.run? rest

/-- While patches stand, the function that resolves is installed, and when none
does, the original one is. -/
def Kept (original : Canonicaliser) (p : Patched) : Prop :=
  p.session.installed = if p.standing = [] then original else .resolving

-- =============================================================== orders

/-- How many patches stand after an event. -/
def Event.after : Event → Nat → Nat
  | .patch, n => n + 1
  | .undo _, n => n - 1
  | .elsewhere _ _, n => n

/-- A rule for the place of a patch that is undone while so many stand. -/
def Event.Obeys (rule : (standing place : Nat) → Prop) (standing : Nat) : Event → Prop
  | .undo place => rule standing place
  | .patch | .elsewhere _ _ => True

/-- All patches of a run are undone by a rule. -/
def Ordered (rule : (standing place : Nat) → Prop) : (standing : Nat) → List Event → Prop
  | _, [] => True
  | n, event :: rest => event.Obeys rule n ∧ Ordered rule (event.after n) rest

/-- The oldest patch is undone only when no other stands. -/
def OldestLast : Nat → List Event → Prop := Ordered fun standing place => place = 0 → standing = 1

/-- Each patch is undone before those that are older, as blocks do that lie in one
another. -/
def YoungestFirst : Nat → List Event → Prop := Ordered fun standing place => place + 1 = standing

theorem YoungestFirst.oldestLast {standing : Nat} {events : List Event}
    (h : YoungestFirst standing events) : OldestLast standing events := by
  induction events generalizing standing with
  | nil => trivial
  | cons event rest ih =>
      refine ⟨?_, ih h.2⟩
      cases event with
      | patch => trivial
      | undo place =>
          have hyoungest : place + 1 = standing := h.1
          exact fun holdest => by omega
      | elsewhere change keeps => trivial

-- =============================================================== stacks

variable {original : Canonicaliser} {p q : Patched} {event : Event}

/-- Of the patches that stand, the oldest one remembers the original function, and
the others were made over it. -/
structure Stacked (original : Canonicaliser) (p : Patched) : Prop where
  kept : p.Kept original
  oldest : ∀ patch ∈ p.standing.head?, patch.replaced = original
  others : ∀ patch ∈ p.standing.tail, patch.replaced = .resolving

theorem length_of_step? (h : p.step? event = some q) :
    q.standing.length = event.after p.standing.length := by
  cases event with
  | patch =>
      injection h with h
      rw [← h]
      exact List.length_append
  | undo place =>
      obtain ⟨patch, hpatch, rfl⟩ := Option.map_eq_some_iff.mp h
      exact List.length_eraseIdx_of_lt (List.getElem?_eq_some_iff.mp hpatch).1
  | elsewhere change keeps =>
      injection h with h
      rw [← h]
      rfl

/-- Patches stay stacked unless the oldest of several is undone. -/
theorem Stacked.after_step (hp : p.Stacked original) (h : p.step? event = some q)
    (hrule : original = .resolving
      ∨ event.Obeys (fun standing place => place = 0 → standing = 1) p.standing.length) :
    q.Stacked original := by
  obtain ⟨session, standing⟩ := p
  obtain ⟨hkept, holdest, hothers⟩ := hp
  cases event with
  | patch =>
      injection h with h
      subst h
      cases standing with
      | nil =>
          have hinstalled : session.installed = original := hkept
          refine ⟨rfl, fun patch hpatch => ?_, by simp⟩
          rw [← Option.some.inj hpatch]
          exact hinstalled
      | cons first others =>
          have hinstalled : session.installed = .resolving := hkept
          refine ⟨rfl, holdest, fun patch hpatch => ?_⟩
          rcases List.mem_append.mp hpatch with hold | hnew
          · exact hothers patch hold
          · rw [List.mem_singleton.mp hnew]
            exact hinstalled
  | undo place =>
      obtain ⟨patch, hpatch, rfl⟩ := Option.map_eq_some_iff.mp h
      cases standing with
      | nil => cases hpatch
      | cons first others =>
          cases place with
          | zero =>
              -- the oldest: either it stands alone, or it makes no difference
              obtain rfl : first = patch := Option.some.inj hpatch
              have hfirst : first.replaced = original := holdest first rfl
              cases others with
              | nil => exact ⟨hfirst, by simp, by simp⟩
              | cons second rest =>
                  have horiginal : original = .resolving := by
                    rcases hrule with horiginal | halone
                    · exact horiginal
                    · exact absurd (halone rfl) (by simp)
                  refine ⟨hfirst.trans horiginal, fun patch hpatch => ?_,
                    fun patch hpatch => hothers patch (List.mem_cons_of_mem second hpatch)⟩
                  rw [← Option.some.inj hpatch, horiginal]
                  exact hothers second List.mem_cons_self
          | succ place =>
              have hyounger : patch ∈ others := List.mem_of_getElem? hpatch
              exact ⟨hothers patch hyounger, holdest,
                fun other hother => hothers other (List.mem_of_mem_eraseIdx hother)⟩
  | elsewhere change keeps =>
      injection h with h
      subst h
      exact ⟨(keeps session).trans hkept, holdest, hothers⟩

/-- When the oldest of several patches is undone, the original function is back too
early. -/
theorem Stacked.not_kept (hp : p.Stacked original) (h : p.step? (.undo 0) = some q)
    (hseveral : p.standing.length ≠ 1) (horiginal : original ≠ .resolving) :
    ¬ q.Kept original := by
  obtain ⟨session, standing⟩ := p
  obtain ⟨patch, hpatch, rfl⟩ := Option.map_eq_some_iff.mp h
  match standing with
  | [] => cases hpatch
  | [_] => exact absurd rfl hseveral
  | first :: second :: rest =>
      obtain rfl : first = patch := Option.some.inj hpatch
      intro hkept
      have hback : first.replaced = .resolving := hkept
      exact horiginal ((hp.oldest first rfl).symm.trans hback)

theorem Stacked.start (s : Session) : Stacked s.installed ⟨s, []⟩ :=
  ⟨rfl, by simp, by simp⟩

-- ============================================================ every run

/-- A run keeps what it ought to at every moment just when it undoes the oldest
patch last, unless nothing was to be put back. -/
theorem Stacked.kept_iff {events : List Event} {final : Patched} (hp : p.Stacked original)
    (h : p.run? events = some final) :
    (∀ before q, before <+: events → p.run? before = some q → q.Kept original)
      ↔ original = .resolving ∨ OldestLast p.standing.length events := by
  induction events generalizing p with
  | nil =>
      refine ⟨fun _ => .inr trivial, fun _ before q hbefore hq => ?_⟩
      rw [List.prefix_nil.mp hbefore] at hq
      exact Option.some.inj hq ▸ hp.kept
  | cons event rest ih =>
      obtain ⟨q, hstep, hrest⟩ := Option.bind_eq_some_iff.mp h
      have hrun (before : List Event) : p.run? (event :: before) = q.run? before := by
        show (p.step? event).bind _ = _
        rw [hstep]
        rfl
      constructor
      · intro hkept
        by_cases horiginal : original = .resolving
        · exact .inl horiginal
        have hobeys : event.Obeys (fun standing place => place = 0 → standing = 1)
            p.standing.length := by
          cases event with
          | patch => trivial
          | elsewhere change keeps => trivial
          | undo place =>
              intro (hplace : place = 0)
              subst hplace
              exact Decidable.byContradiction fun hseveral =>
                hp.not_kept hstep hseveral horiginal
                  (hkept [.undo 0] q (List.prefix_append [_] rest) (hrun []))
        refine .inr ⟨hobeys, ?_⟩
        rw [← length_of_step? hstep]
        exact ((ih (hp.after_step hstep (.inr hobeys)) hrest).mp fun before r hbefore hr =>
          hkept (event :: before) r ((List.prefix_cons_inj event).mpr hbefore)
            ((hrun before).trans hr)).resolve_left horiginal
      · intro hrule before r hbefore hr
        rcases List.prefix_cons_iff.mp hbefore with rfl | ⟨before, rfl, hshorter⟩
        · exact Option.some.inj hr ▸ hp.kept
        · rw [hrun] at hr
          refine (ih (hp.after_step hstep (hrule.imp_right And.left)) hrest).mpr ?_
            before r hshorter hr
          rw [length_of_step? hstep]
          exact hrule.imp_right And.right

/-- Blocks that lie in one another keep the function that resolves installed, and the
last of them puts back the one from before. -/
theorem kept_of_youngestFirst {s : Session} {events : List Event} {final : Patched}
    (h : run? ⟨s, []⟩ events = some final) (hyoungest : YoungestFirst 0 events) :
    ∀ before q, before <+: events → run? ⟨s, []⟩ before = some q → q.Kept s.installed :=
  ((Stacked.start s).kept_iff h).mpr (.inr hyoungest.oldestLast)

/-- A function of the program's own comes back too. -/
example :
    let s := (Session.start (.memory (.empty (text "/"))) .empty .standard).install (.own 7)
    (run? ⟨s, []⟩ [.patch, .patch, .undo 1, .undo 0]).map (·.session.installed)
      = some (.own 7) := rfl

end Patched

open Patched

/-- From where no patch stands, a program that makes and undoes patches has the
function that resolves installed while any of them stands, and the function from
before when none does, just when the oldest patch that stands is always undone
last, or when that function was the one that resolves to begin with. -/
theorem patches_kept_iff_oldest_last (s : Session) (events : List Event) (final : Patched)
    (h : Patched.run? ⟨s, []⟩ events = some final) :
    (∀ before q, before <+: events → Patched.run? ⟨s, []⟩ before = some q → q.Kept s.installed)
      ↔ s.installed = .resolving ∨ OldestLast 0 events :=
  (Stacked.start s).kept_iff h

/-- Two patches that overlap, and then two more, the second of which is undone at
once: the first of all is undone last. -/
theorem kept_through_overlapping_patches :
    ∃ final, Patched.run? ⟨.start (.memory (.empty (text "/"))) .empty .standard, []⟩
        [.patch, .patch, .patch, .undo 1, .patch, .undo 2, .undo 1, .undo 0] = some final
      ∧ final.standing = [] ∧ final.session.installed = .builtin
      ∧ ∀ before q,
          before <+: [.patch, .patch, .patch, .undo 1, .patch, .undo 2, .undo 1, .undo 0]
          → Patched.run? ⟨.start (.memory (.empty (text "/"))) .empty .standard, []⟩ before = some q
          → q.Kept .builtin :=
  ⟨_, rfl, rfl, rfl,
    (patches_kept_iff_oldest_last (.start (.memory (.empty (text "/"))) .empty .standard)
      [.patch, .patch, .patch, .undo 1, .patch, .undo 2, .undo 1, .undo 0] _ rfl).mpr
      (.inr (by simp [OldestLast, Ordered, Event.Obeys, Event.after]))⟩

/-- Two patches, and the older one undone first: with one that still stands, the
builtin function is installed, and with none, the one that resolves. -/
theorem oldest_patch_undone_first :
    (∃ q, Patched.run? ⟨.start (.memory (.empty (text "/"))) .empty .standard, []⟩
        [.patch, .patch, .undo 0] = some q
      ∧ q.standing.length = 1 ∧ q.session.installed = .builtin)
    ∧ ∃ q, Patched.run? ⟨.start (.memory (.empty (text "/"))) .empty .standard, []⟩
        [.patch, .patch, .undo 0, .undo 0] = some q
      ∧ q.standing = [] ∧ q.session.installed = .resolving :=
  ⟨⟨_, rfl, rfl, rfl⟩, _, rfl, rfl, rfl⟩

end PathResolution
