/-
A path says its names, and nothing else.

A resolution reads a path once, for the names that wait in its queue, and writes
one at the end. What was read can be written and read again (`names_pathOf_names`),
and a slash between two paths puts the names of the one in front of those of the
other (`names_append`). The queue keeps to this: names are put in front of it one
at a time, the last one first (`prependPath_eq_pushed`), so what is put in front of
another path waits as the two of them with a slash between
(`prependPath_prependPath`).

For a relative path this happens twice, first for the path and then for the working
directory. So it waits as the absolute path that is written from both
(`queueOf_relative`), and both are resolved alike. Where a failure is reported may
still differ: a target that cannot be encoded is reported at the path that was
given.
-/
import PathResolution.Proofs.Resolution.Composition

namespace PathResolution

-- ================================================================ queues

/-- A queue with names put in front of it one at a time, so that the last of them
is the next one to be taken. -/
def pushed (ns queue : List Name) : List Name := ns.foldl (fun queue n => n :: queue) queue

theorem pushed_reverse (ns queue : List Name) : pushed ns.reverse queue = ns ++ queue := by
  rw [pushed, List.foldl_flip_cons_eq_append', List.reverse_reverse]

/-- To stand in order, the names of a path are put in front from the last to the
first. -/
theorem prependPath_eq_pushed (path : Text) (pending : List Name) :
    (prependPath path pending).1 = pushed (names path).reverse pending :=
  (pushed_reverse (names path) pending).symm

/-- The number that comes with the queue says where the names begin that waited
before. -/
theorem prependPath_divides (path : Text) (pending : List Name) :
    (prependPath path pending).1.take (prependPath path pending).2 = names path
      ∧ (prependPath path pending).1.drop (prependPath path pending).2 = pending :=
  ⟨List.take_left, List.drop_left⟩

/-- One path in front of another waits as the two of them with a slash between. -/
theorem prependPath_prependPath (a b : Text) (pending : List Name) :
    (prependPath a (prependPath b pending).1).1
      = (prependPath (a ++ separator :: b) pending).1 := by
  unfold prependPath
  rw [names_append, List.append_assoc]

/-- A resolution starts with the names of the path behind those of the working
directory. -/
theorem startingNames_eq (path w : Text) :
    startingNames path w = names (w ++ separator :: path) :=
  (prependPath_prependPath w path []).trans (List.append_nil _)

/-- A relative path waits as the absolute one behind the working directory. -/
theorem queueOf_relative {w path : Text} (hrelative : isAbsolute path = false) :
    queueOf w path = queueOf w (separator :: (w ++ separator :: path)) := by
  have habsolute : isAbsolute (separator :: (w ++ separator :: path)) = true := by
    simp [isAbsolute]
  rw [queueOf_of_isAbsolute habsolute, names_separator_cons, queueOf, hrelative,
    if_neg Bool.false_ne_true, startingNames_eq]

-- ============================================================ resolutions

/-- What is no mode is refused, whatever the path. -/
theorem Store.resolved_of_no_mode {s : Store} {limits : Limits} {env : Environment}
    {exact : Value} {e : NotAMode} (he : exact.mode? env = .error e) (path : Text) :
    s.resolved limits env path exact = .error e.failure := by
  simp only [resolved, resolve, Value.path?, he, Dialogue.run_done]

/-- Reading and writing paths undo each other and keep slashes apart, the queue is
filled accordingly, and so a relative path is resolved as the absolute one that is
written from the working directory and itself. -/
theorem path_says_its_names :
    (∀ a b : Text, names (a ++ separator :: b) = names a ++ names b)
      ∧ (∀ path : Text, ∀ n ∈ names path, IsName n)
      ∧ (∀ ns : List Name, (∀ n ∈ ns, IsName n) →
        names (assemble ns).1 = ns ∧ (assemble ns).2 = [])
      ∧ (∀ path : Text, let written := (assemble (names path)).1
        names written = names path ∧ (assemble (names written)).1 = written)
      ∧ (∀ (path : Text) (pending : List Name), let (queue, count) := prependPath path pending
        queue = names path ++ pending ∧ count = (names path).length
          ∧ queue = pushed (names path).reverse pending
          ∧ queue.take count = names path ∧ queue.drop count = pending)
      ∧ (∀ path w : Text, startingNames path w = names (w ++ separator :: path))
      ∧ ∀ (s : Store) (limits : Limits) (env : Environment) (exact : Value) (w path : Text),
        s.Reachable → isAbsolute path = false →
        let resolved := fun path =>
          Store.resolved { s with workingDirectory := w } limits env path exact
        let absolute := separator :: (w ++ separator :: path)
        (∀ mode, exact.mode? env = .ok mode → EndsAlike (resolved path) (resolved absolute))
          ∧ ∀ e, exact.mode? env = .error e →
            resolved path = .error e.failure ∧ resolved absolute = .error e.failure := by
  refine ⟨names_append, fun path n hn => isName_of_mem_names hn,
    fun ns hns => ⟨names_pathOf hns, rfl⟩,
    fun path => ⟨names_pathOf_names path, congrArg pathOf (names_pathOf_names path)⟩,
    fun path pending => ⟨rfl, rfl, prependPath_eq_pushed path pending,
      prependPath_divides path pending⟩, startingNames_eq, ?_⟩
  intro s limits env exact w path hs hrelative resolved absolute
  have hreachable : Store.Reachable { s with workingDirectory := w } := .changeDirectory w hs
  refine ⟨fun mode hmode => ?_, fun e he => ⟨?_, ?_⟩⟩
  · apply Store.endsAlike_of_course_eq hreachable.wellFormed hmode
    rw [queueOf_relative hrelative]
  · exact Store.resolved_of_no_mode he path
  · exact Store.resolved_of_no_mode he absolute

/-- Behind a working directory that climbs out of a link; and a link whose target is
a lone surrogate, about which the two errors say different paths. -/
theorem path_says_its_names_in_directory :
    let s : Store := { (Store.sample.makeLink [0xD800] (text "/x")).2 with
      workingDirectory := text "l//.." }
    let resolved := fun path => s.resolved .standard .empty path (.truth true)
    let absolute := fun path => separator :: (text "l//.." ++ separator :: path)
    names (assemble [text "l", dotDot, text "d"]).1 = [text "l", dotDot, text "d"]
      ∧ EndsAlike (resolved (text "d/")) (resolved (absolute (text "d/")))
      ∧ resolved (text "d/") = .ok (.text (text "/d"))
      ∧ EndsAlike (resolved (text "x")) (resolved (absolute (text "x")))
      ∧ resolved (text "x") ≠ resolved (absolute (text "x"))
      ∧ s.resolved .standard .empty (text "x") (.integer 0)
        = .error (.notAMode (text "0")) := by
  intro s resolved absolute
  have hnames : ∀ n ∈ [text "l", dotDot, text "d"], IsName n := by
    simp only [List.forall_mem_cons]
    exact ⟨⟨by decide, by decide⟩, Tree.isName_dotDot, ⟨by decide, by decide⟩, nofun⟩
  have hreachable : (Store.sample.makeLink [0xD800] (text "/x")).2.Reachable :=
    .makeLink _ _ Store.sample_reachable
  obtain ⟨-, -, hwritten, -, -, -, hlaws⟩ := path_says_its_names
  have hlaws := fun exact path => hlaws _ .standard .empty exact (text "l//..") path hreachable
  have hfound := (hlaws (.truth true) (text "d/") rfl).1 .exact rfl
  have hstuck := (hlaws (.truth true) (text "x") rfl).1 .exact rfl
  have hrefused := (hlaws (.integer 0) (text "x") rfl).2 (.value (text "0")) rfl
  have hdifferent : resolved (text "x") ≠ resolved (absolute (text "x")) := by decide +kernel
  exact ⟨(hwritten _ hnames).1, hfound, by decide +kernel, hstuck, hdifferent, hrefused.1⟩

end PathResolution
