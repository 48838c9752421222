/-
What the answer of a resolution says.

In form it is canonical, whatever the filesystem answered; this is all that can
be said against a filesystem that may change between two calls. In memory it
says more: looked up name by name, following no link, the answer leads through
directories to a directory or a file. Only in the lenient mode may the last
name be missing, and then from a directory that is there (`Tree.Leads`).
-/
import PathResolution.Proofs.Resolution.Faithful

namespace PathResolution

namespace Tree

variable {t : Tree} {mode : ExistenceMode} {d : DirId} {ns : List Name}

/-- Where the names of an answer lead, literally: through directories, and to
something that is there, unless the mode puts up with a missing last name. -/
structure Leads (t : Tree) (mode : ExistenceMode) (ns : List Name) : Prop where
  through : ∀ k < ns.length, ∃ d, t.node? (ns.take k) = some (.directory d)
  last : (∃ d, t.node? ns = some (.directory d)) ∨ t.node? ns = some .file
    ∨ (mode = .missingOk ∧ ∃ front name d, ns = front ++ [name]
        ∧ t.node? front = some (.directory d) ∧ t.entry? d name = none)

/-- What is found is found behind directories. -/
theorem directory_of_node?_take {node : Node} (h : t.node? ns = some node) {k : Nat}
    (hk : k < ns.length) : ∃ d, t.node? (ns.take k) = some (.directory d) := by
  rw [← List.take_append_drop k ns, node?_append] at h
  cases hdrop : ns.drop k with
  | nil =>
      have hlength := List.drop_eq_nil_iff.mp hdrop
      omega
  | cons name rest =>
      rw [hdrop] at h
      cases htake : t.node? (ns.take k) with
      | none =>
          rw [htake] at h
          cases h
      | some mid =>
          rw [htake] at h
          cases mid with
          | directory d => exact ⟨d, rfl⟩
          | file => cases h
          | link target => cases h

/-- What a course ends with leads where a trail should lead. -/
theorem Reaches.leads {trail : List Name} (h : t.Reaches mode trail) :
    t.Leads mode trail.reverse := by
  cases h with
  | directory d hd => exact ⟨fun k hk => directory_of_node?_take hd hk, .inl ⟨d, hd⟩⟩
  | file hfile => exact ⟨fun k hk => directory_of_node?_take hfile hk, .inr (.inl hfile)⟩
  | @missing trail name d hmode hd hentry =>
      refine ⟨fun k hk => ?_,
        .inr (.inr ⟨hmode, trail.reverse, name, d, List.reverse_cons, hd, hentry⟩)⟩
      rw [List.length_reverse, List.length_cons] at hk
      rw [List.reverse_cons,
        List.take_append_of_le_length (by rw [List.length_reverse]; omega)]
      by_cases hlast : k = trail.length
      · rw [hlast, ← List.length_reverse, List.take_length]
        exact ⟨d, hd⟩
      · exact directory_of_node?_take hd (by rw [List.length_reverse]; omega)

end Tree

variable {s : Store} {limits : Limits} {env : Environment} {path : Text} {exact : Value}
  {canonical : Text}

/-- A path that a resolution gives is canonical, whoever answered. -/
theorem isCanonical_of_resolve {σ : Type} {answer : Dialogue.Answering σ} {s : σ}
    (h : ((resolve limits env (.string path) exact).run answer s).value = .ok (.text canonical)) :
    IsCanonical canonical := by
  obtain ⟨mode, hmode⟩ := mode_of_resolve_string h
  rw [resolve_string_value hmode] at h
  have hform := (canonicalPathShown_canonical (quoted path) limits mode path).run_anything answer s
  cases hvalue : ((canonicalPathShown (quoted path) limits mode path).run answer s).value with
  | error failure =>
      rw [hvalue] at h
      cases h
  | ok found =>
      rw [hvalue] at h
      injection h with h
      injection h with h
      exact hform canonical (h ▸ hvalue)

/-- What is known of the path that a resolution in memory gives. -/
theorem Store.course_of_resolved (hs : s.WellFormed) {mode : ExistenceMode}
    (hmode : exact.mode? env = .ok mode)
    (h : s.resolved limits env path exact = .ok (.text canonical)) :
    ∃ trail, s.tree.course mode limits.maxLinkSize limits.loopBudget
        (queueOf s.workingDirectory path) [] = .ok trail
      ∧ canonical = trailPath trail ∧ names canonical = trail.reverse
      ∧ (∀ n ∈ trail, IsPlainName n) ∧ s.tree.Reaches mode trail := by
  obtain ⟨trail, hcourse, rfl⟩ := (resolved_eq_ok_iff hs hmode).mp h
  have hplain : ∀ n ∈ trail, IsPlainName n :=
    Tree.isPlainName_of_course _ _ _ (fun _ hn => isName_of_mem_queueOf hn)
      (fun _ hn => absurd hn List.not_mem_nil) hcourse
  refine ⟨trail, hcourse, rfl, names_trailPath hplain, hplain, ?_⟩
  exact hs.tree.reaches_of_course _ _ _ (.inl ⟨Tree.root, rfl⟩) hcourse

/-- The answer is canonical in form against every filesystem, and in memory its
names lead through directories. -/
theorem resolve_canonical (limits : Limits) (env : Environment) (path : Text) (exact : Value)
    (canonical : Text) :
    (∀ {σ : Type} (answer : Dialogue.Answering σ) (s : σ),
        ((resolve limits env (.string path) exact).run answer s).value = .ok (.text canonical) →
          IsCanonical canonical)
      ∧ ∀ (s : Store) (mode : ExistenceMode), s.Reachable → exact.mode? env = .ok mode →
        s.resolved limits env path exact = .ok (.text canonical) →
          s.tree.Leads mode (names canonical) := by
  refine ⟨fun _ _ h => isCanonical_of_resolve h, fun s mode hs hmode h => ?_⟩
  obtain ⟨trail, -, -, hnames, -, hreaches⟩ := Store.course_of_resolved hs.wellFormed hmode h
  rw [hnames]
  exact hreaches.leads

/-- In the lenient mode a link is replaced, and the missing name behind it is
kept. -/
theorem resolve_canonical_behind_link :
    IsCanonical (text "/d/g") ∧ Store.sample.tree.Leads .missingOk (names (text "/d/g")) := by
  have h : Store.sample.resolved .standard .empty (text "../l/./g") (.truth false)
      = .ok (.text (text "/d/g")) := rfl
  obtain ⟨hform, htree⟩ := resolve_canonical .standard .empty (text "../l/./g")
    (.truth false) (text "/d/g")
  exact ⟨hform _ _ h, htree _ .missingOk Store.sample_reachable rfl h⟩

end PathResolution
