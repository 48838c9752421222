/-
Names that cannot be represented.

A filesystem refuses a name that it cannot hold, and a link may have a target
without bytes. Neither is an error of the system, so nobody on the way
translates it: the place that knows the name that was taken looks for errors of
the system only, and lets a refusal pass. The loop ends with the refusal as it
is (`takeNames_run_of_unrepresentable`), the directory that is held is closed,
and only then is the refusal translated, at the path that was given. So the
error does not say which of the names it is about, as it does for every error of
the system. The two agree on a path that is written as the resolution went, and
on no other: behind a link, or with a name behind the one that fails, they do
not.
-/
import PathResolution.Injection
import PathResolution.Proofs.Resolution.Canonical
import PathResolution.Proofs.Resolution.Heads

namespace PathResolution

-- ============================================================== refusals

/-- Answers to the question for a target that show what was asked about to have
no representation: the name is refused, or the target has no bytes. -/
inductive Unrepresentable : Except Fault Text → Refusal → Prop
  | name (why : Refusal) : Unrepresentable (.error (.refused why)) why
  | target (target : Text) (u : Unencodable) : utf8 target = .error u →
      Unrepresentable (.ok target) (.unencodable u)

/-- A target without bytes is not empty, and the first thing to be found wrong
with it is that it has no bytes. -/
theorem followLink_of_unencodable {target : Text} {u : Unencodable}
    (hbytes : utf8 target = .error u) (maxLinkSize : Nat) (name : Name) (v : Visit) :
    followLink maxLinkSize name target v
      = .done (.stuck (.fault (.refused (.unencodable u))) v.cursor) := by
  have hne : ¬ target.isEmpty = true := by
    intro hempty
    rw [List.isEmpty_iff.mp hempty] at hbytes
    cases hbytes
  rw [followLink, if_neg hne, hbytes]

section

variable {σ : Type} {answer : Dialogue.Answering σ} {name : Name} {h : Handle} {s : σ}
  {why : Refusal}

/-- Taking such a name puts one question, and ends the loop with the refusal as
it is. -/
theorem takeNames_run_of_unrepresentable (mode : ExistenceMode) (maxLinkSize : Nat)
    (pending trail : List Name) (hdot : name ≠ dot) (hdotDot : name ≠ dotDot)
    (hwhy : Unrepresentable (answer (.readLink h name) s).1 why) (left : Nat) :
    let ended :=
      (takeNames mode maxLinkSize (left + 1) ⟨name :: pending, trail, ⟨some h⟩⟩).run answer s
    ended.value = (.error (.fault (.refused why)), ⟨some h⟩)
      ∧ ended.state = (answer (.readLink h name) s).2 := by
  simp only [takeNames, takeName, if_neg hdot, if_neg hdotDot, Cursor.readLink, Cursor.withHandle,
    Cursor.handle, Dialogue.bind, Dialogue.run_ask]
  generalize (answer (.readLink h name) s).1 = reply at hwhy
  cases hwhy with
  | name why => exact ⟨rfl, rfl⟩
  | target target u hbytes =>
      simp only [followLink_of_unencodable hbytes]
      exact ⟨rfl, rfl⟩

end

-- ================================================================ closes

/-- A question that is asked in this state is no close, or is one that
succeeds. -/
def CloseSucceeds {σ : Type} (answer : Dialogue.Answering σ) : Primitive × σ → Prop
  | (.close h, s) => (answer (.close h) s).1 = .ok ()
  | _ => True

instance {σ : Type} (answer : Dialogue.Answering σ) : DecidablePred (CloseSucceeds answer)
  | (.close h, s) => inferInstanceAs (Decidable ((answer (.close h) s).1 = .ok ()))
  | (.workingDirectory, _) | (.openRoot, _) | (.openRelative _ _, _) | (.readLink _ _, _) =>
    inferInstanceAs (Decidable True)

/-- No close fails that a dialogue asks for. -/
def ClosesSucceed {α σ : Type} (answer : Dialogue.Answering σ) (d : Dialogue α) (s : σ) : Prop :=
  ∀ asked ∈ d.asked answer s, CloseSucceeds answer asked

instance {α σ : Type} (answer : Dialogue.Answering σ) (d : Dialogue α) (s : σ) :
    Decidable (ClosesSucceed answer d s) :=
  inferInstanceAs (Decidable (∀ asked ∈ d.asked answer s, CloseSucceeds answer asked))

/-- In memory a resolution closes what it has opened, and that does not fail. -/
theorem Store.closesSucceed {s : Store} (hs : s.WellFormed) {limits : Limits} {env : Environment}
    {exact : Value} {mode : ExistenceMode} (hmode : exact.mode? env = .ok mode) (path : Text) :
    ClosesSucceed answer (resolve limits env (.string path) exact) s := by
  rintro ⟨question, s'⟩ hasked
  cases question with
  | close h => ?_
  | _ => trivial
  rw [resolve_string_asked hmode] at hasked
  obtain ⟨view, hshows, howned⟩ :=
    (canonicalPathShown_follows_tree hs.tree _ limits mode path).asked
      (honours_tree s.tree s.workingDirectory) (shows_nothing hs.handles) hasked
  exact (hshows.closeHandle howned).1

-- =============================================================== reports

/-- A resolution that takes a name without a representation fails with an
invalid argument at the path that was given, on any filesystem, unless a close
fails. That is the name's own path, where every error of the system is reported,
if the path that was given is written so, and only then. -/
theorem unrepresentable_reported_at_path {σ : Type} {answer : Dialogue.Answering σ} (s : σ)
    (limits : Limits) (env : Environment) (path : Text) (exact : Value) (mode : ExistenceMode)
    (hmode : exact.mode? env = .ok mode)
    (hcloses : ClosesSucceed answer (resolve limits env (.string path) exact) s)
    (taken : Nat) (name : Name) (pending trail : List Name) (h : Handle) (s' : σ)
    (hhead : Heads answer mode limits.maxLinkSize path s taken
      ⟨name :: pending, trail, ⟨some h⟩⟩ s')
    (htaken : taken < limits.loopBudget) (hdot : name ≠ dot) (hdotDot : name ≠ dotDot)
    (why : Refusal) (hwhy : Unrepresentable (answer (.readLink h name) s').1 why) :
    ∃ e, ((resolve limits env (.string path) exact).run answer s).value = .error (.resolution e)
      ∧ e.code = Errno.invalidArgument ∧ e.cause = some (.refused why)
      ∧ e.filename = some (.text path)
      ∧ (e.filename = some (.text (trailPath (name :: trail)))
        ↔ path = trailPath (name :: trail)) := by
  obtain ⟨left, hleft⟩ : ∃ left, limits.loopBudget = taken + (left + 1) :=
    ⟨limits.loopBudget - taken - 1, by omega⟩
  -- the loop ends with the refusal, and the directory is still open
  obtain ⟨hended, hstate⟩ := takeNames_run_of_unrepresentable mode limits.maxLinkSize pending trail
    hdot hdotDot hwhy left
  -- so it is closed, and that succeeds
  have hasked : (.close h, (answer (.readLink h name) s').2)
      ∈ (resolve limits env (.string path) exact).asked answer s := by
    rw [resolve_string_asked hmode]
    refine (hhead.asked_from (quoted path) rfl hleft).mem ?_
    rw [Dialogue.asked_bind, hended, hstate]
    exact List.mem_append_right _ List.mem_cons_self
  have hclosed : (answer (.close h) (answer (.readLink h name) s').2).1 = .ok () := hcloses _ hasked
  have hvalue : ((resolve limits env (.string path) exact).run answer s).value
      = .error (.resolution ⟨Errno.invalidArgument, some (.text path), some (.refused why)⟩) := by
    rw [resolve_string_value hmode, (hhead.run_eq (quoted path) rfl hleft).1]
    simp only [Dialogue.run_bind, hended, hstate, leave, Cursor.close, Cursor.replace,
      Dialogue.run_ask, hclosed]
    rfl
  exact ⟨_, hvalue, rfl, rfl, rfl, by simp⟩

/-- A name that is refused behind a link: the error is about `/d/f`, and says
`/l/f`. -/
theorem unrepresentable_reported_at_path_behind_link :
    let s : Injected Store := ⟨.sample, [⟨.readLink, some (text "f"), 0, .refused .embeddedNul⟩]⟩
    ∃ e, ((resolve .standard .empty (.string (text "/l/f")) (.truth true)).run
          (injecting Store.answer) s).value = .error (.resolution e)
      ∧ e.code = Errno.invalidArgument ∧ e.filename = some (.text (text "/l/f"))
      ∧ e.filename ≠ some (.text (text "/d/f")) := by
  intro s
  let answer := injecting Store.answer
  have hdirectory : ((startingDirectory (text "/l/f")).run answer s).value = .ok [] := rfl
  have hfirst : Heads answer .exact 4096 (text "/l/f") s 0
      ⟨[text "l", text "f"], [], ⟨some 3⟩⟩ _ := .first hdirectory rfl
  have hfollowed : Heads answer .exact 4096 (text "/l/f") s 1
      ⟨[text "d", text "f"], [], ⟨some 3⟩⟩ _ := hfirst.next rfl
  have hmoved : Heads answer .exact 4096 (text "/l/f") s 2 ⟨[text "f"], [text "d"], ⟨some 4⟩⟩ _ :=
    hfollowed.next rfl
  have hcloses : ClosesSucceed answer
      (resolve .standard .empty (.string (text "/l/f")) (.truth true)) s := by decide
  obtain ⟨e, hvalue, hcode, -, hfilename, hwritten⟩ := unrepresentable_reported_at_path s .standard
    .empty (text "/l/f") (.truth true) .exact rfl hcloses 2 (text "f") [] [text "d"] 4 _ hmoved
    (by decide) (by decide) (by decide) .embeddedNul (.name _)
  exact ⟨e, hvalue, hcode, hfilename, fun h => absurd (hwritten.mp h) (by decide)⟩

/-- A directory with a link in it whose target is a lone surrogate. -/
def Store.unencodableLink : Store :=
  (((Store.empty (text "/")).makeDirectory (text "/d") false false).2.makeLink [0xD800]
    (text "/d/l")).2

theorem Store.unencodableLink_reachable : unencodableLink.Reachable :=
  .makeLink _ _ (.makeDirectory _ _ _ (.empty _))

/-- The link `/d/l` cannot be followed, and the error says `/d/l/x`, behind
which there is nothing. -/
theorem unrepresentable_target_reported_elsewhere :
    let path := text "/d/l/x"
    ClosesSucceed Store.answer (resolve .standard .empty (.string path) (.truth false))
        .unencodableLink
      ∧ (∃ s', Heads Store.answer .missingOk 4096 path .unencodableLink 1
            ⟨[text "l", text "x"], [text "d"], ⟨some 4⟩⟩ s'
          ∧ Unrepresentable (Store.answer (.readLink 4 (text "l")) s').1
            (.unencodable ⟨0xD800, 0, 1⟩))
      ∧ ∃ e, Store.unencodableLink.resolved .standard .empty path (.truth false)
            = .error (.resolution e)
          ∧ e.code = Errno.invalidArgument
          ∧ e.filename ≠ some (.text (trailPath [text "l", text "d"])) := by
  intro path
  have hdirectory : ((startingDirectory path).run Store.answer .unencodableLink).value = .ok [] :=
    rfl
  have hfirst : Heads Store.answer .missingOk 4096 path .unencodableLink 0
      ⟨[text "d", text "l", text "x"], [], ⟨some 3⟩⟩ _ := .first hdirectory rfl
  have hmoved : Heads Store.answer .missingOk 4096 path .unencodableLink 1
      ⟨[text "l", text "x"], [text "d"], ⟨some 4⟩⟩ _ := hfirst.next rfl
  have hcloses : ClosesSucceed Store.answer
      (resolve .standard .empty (.string path) (.truth false)) .unencodableLink :=
    Store.closesSucceed Store.unencodableLink_reachable.wellFormed rfl path
  exact ⟨hcloses, ⟨_, hmoved, .target [0xD800] _ rfl⟩, _, rfl, rfl, by decide⟩

end PathResolution
