/-
The libraries that the programs here run with do what is relied on.

Arguments are read from the front, and a later option counts for more than an
earlier one, while `Spells` puts them together from the back. So reading is
followed from any options that were read before (`scan_of_spells`, by induction on
what is spelt). The streams only take away what is no part of a text that is
carried as it is.
-/
import PathResolution.CommandLine.Standard
import PathResolution.Proofs.CommandLine.Libraries

namespace PathResolution.CommandLine

-- ================================================================ counts

section

variable {t : Text} {n : Nat}

theorem isAsciiDigit_of_digit {c : CodePoint} (h : 0x30 ≤ c.val ∧ c.val ≤ 0x39) :
    c.isAsciiDigit = true := by
  rw [CodePoint.isAsciiDigit, decide_eq_true h.1, decide_eq_true h.2, Bool.and_self]

theorem IsCount.exists_cons (h : IsCount t n) : ∃ c rest, t = c :: rest := by
  obtain ⟨ds, hrun, -⟩ := h.numeral
  obtain ⟨c, rest, d, ht, -⟩ := hrun.exists_cons
  exact ⟨c, rest, ht⟩

theorem IsCount.trimBlanks_eq (h : IsCount t n) : trimBlanks t = t := by
  have hblank : ∀ c ∈ t, c.isBlank = false := by
    intro c hc
    obtain ⟨hlow, hhigh⟩ := h.digits c hc
    have hdigit : c.IsDigit (c.val - 0x30) := ⟨by omega, 0x30, by decide, by omega⟩
    exact isBlank_of_isDigit hdigit
  have htrimmed : trimBlanks ([] ++ t ++ []) = t := trimBlanks_append nofun nofun
    (fun c hc => hblank c (List.mem_of_head? hc)) fun c hc => hblank c (List.mem_of_getLast? hc)
  rwa [List.nil_append, List.append_nil] at htrimmed

theorem IsCount.withoutZeroFraction_eq (h : IsCount t n) : withoutZeroFraction t = t := by
  have hwhole : t.takeWhile (· != 0x2E) = t := by
    refine List.takeWhile_eq_self_iff.mpr fun c hc => bne_iff_ne.mpr ?_
    rintro rfl
    exact absurd (h.digits _ hc).1 (by decide)
  unfold withoutZeroFraction
  simp [hwhole]

theorem IsCount.count?_eq (h : IsCount t n) : count? t = some n := by
  have hnumber : natural? t = some n := natural?_eq_some_iff.mpr h.numeral
  have hall : t.all (fun c => c.isAsciiDigit || c == 0x5F) = true :=
    List.all_eq_true.mpr fun c hc =>
      Bool.or_eq_true_iff.mpr (.inl (isAsciiDigit_of_digit (h.digits c hc)))
  obtain ⟨c, rest, rfl⟩ := h.exists_cons
  have hdigit := h.digits c List.mem_cons_self
  have hplus : c ≠ 0x2B := by
    rintro rfl
    exact absurd hdigit.1 (by decide)
  have hzeros : withoutLeadingZeros (c :: rest) = c :: rest := if_neg h.head
  unfold count?
  rw [h.trimBlanks_eq]
  simp only [if_neg hplus, unsignedCount?, List.head?_cons, Option.map_some, Option.getD_some,
    isAsciiDigit_of_digit hdigit, if_true, hzeros, h.withoutZeroFraction_eq, hall, hnumber]

end

-- ============================================================= arguments

/-- A budget that was read, in front of those that are still to come. -/
theorem budget?_or {before : Text} {later : Option Text} {n : Nat} {rest : Option Nat}
    (hbefore : budget? (some before) = some (some n)) (hlater : budget? later = some rest) :
    budget? (later.or (some before)) = some (some (rest.getD n)) := by
  cases later with
  | none =>
      obtain rfl : none = rest := Option.some.inj hlater
      exact hbefore
  | some t =>
      have hsome : ∃ m, rest = some m := by
        unfold budget? at hlater
        split at hlater
        · next heq => cases heq
        · split at hlater
          · split at hlater
            · exact ⟨_, (Option.some.inj hlater).symm⟩
            · cases hlater
          · cases hlater
      obtain ⟨m, rfl⟩ := hsome
      exact hlater

section

variable {o o' : Options} {argument value : Text} {rest : List Text}

theorem scan_of_taken (h : o.step argument = .taken o') :
    o.scan (argument :: rest) = o'.scan rest := by
  rw [Options.scan.eq_def]
  simp only [h]

theorem scan_of_onlyPaths (h : o.step argument = .onlyPaths) :
    o.scan (argument :: rest) = some { o with paths := o.paths ++ rest } := by
  rw [Options.scan.eq_def]
  simp only [h]

theorem scan_of_wantsBudget (h : o.step argument = .wantsBudget) :
    o.scan (argument :: value :: rest) = Options.scan { o with loopBudget := some value } rest := by
  rw [Options.scan.eq_def]
  simp only [h]

end

/-- A path is put behind those that were read before. -/
theorem step_of_path {path : Text} (h : path.head? ≠ some 0x2D ∨ path = text "-") (o : Options) :
    o.step path = .taken { o with paths := o.paths ++ [path] } := by
  rcases h with hhead | rfl
  · have hdashes : path ≠ text "--" := by
      rintro rfl
      exact hhead rfl
    unfold Options.step
    rw [if_neg hdashes, if_neg fun hboth => hhead hboth.1]
  · rfl

/-- Reading goes on from what was read before: paths are put behind, options are
added, and a budget takes the place of an earlier one. -/
theorem scan_of_spells {arguments : List Text} {i : Invocation} (h : Spells arguments i)
    (o : Options) :
    ∃ budget, budget? budget = some i.loopBudget
      ∧ o.scan arguments = some ⟨o.paths ++ i.paths, o.exact || i.exact, o.quiet || i.quiet,
          o.verbose || i.verbose, o.help, budget.or o.loopBudget⟩ := by
  induction h generalizing o with
  | nothing =>
      refine ⟨none, rfl, ?_⟩
      simp [Options.scan]
  | onlyPaths paths =>
      refine ⟨none, rfl, ?_⟩
      rw [scan_of_onlyPaths rfl]
      simp
  | @path path rest i hpath _ ih =>
      obtain ⟨budget, hbudget, hscan⟩ := ih { o with paths := o.paths ++ [path] }
      refine ⟨budget, hbudget, ?_⟩
      rw [scan_of_taken (step_of_path hpath o), hscan]
      simp
  | @exact option rest i hoption _ ih =>
      obtain ⟨budget, hbudget, hscan⟩ := ih { o with exact := true }
      have hstep : o.step option = .taken { o with exact := true } := by
        rcases hoption with rfl | rfl <;> rfl
      refine ⟨budget, hbudget, ?_⟩
      rw [scan_of_taken hstep, hscan]
      simp
  | @quiet option rest i hoption _ ih =>
      obtain ⟨budget, hbudget, hscan⟩ := ih { o with quiet := true }
      have hstep : o.step option = .taken { o with quiet := true } := by
        rcases hoption with rfl | rfl <;> rfl
      refine ⟨budget, hbudget, ?_⟩
      rw [scan_of_taken hstep, hscan]
      simp
  | @verbose option rest i hoption _ ih =>
      obtain ⟨budget, hbudget, hscan⟩ := ih { o with verbose := true }
      have hstep : o.step option = .taken { o with verbose := true } := by
        rcases hoption with rfl | rfl <;> rfl
      refine ⟨budget, hbudget, ?_⟩
      rw [scan_of_taken hstep, hscan]
      simp
  | @loopBudget t n rest i hcount hone _ ih =>
      obtain ⟨later, hlater, hscan⟩ := ih { o with loopBudget := some t }
      have hfirst : budget? (some t) = some (some n) := by
        simp only [budget?, hcount.count?_eq, if_pos hone]
      refine ⟨later.or (some t), budget?_or hfirst hlater, ?_⟩
      rw [scan_of_wantsBudget rfl, hscan]
      cases later <;> rfl

theorem ofArguments_of_spells {arguments : List Text} {i : Invocation} (h : Spells arguments i)
    (hpaths : i.paths ≠ []) : Request.ofArguments arguments = .invocation i := by
  obtain ⟨budget, hbudget, hscan⟩ := scan_of_spells h .none
  unfold Request.ofArguments
  rw [hscan]
  simp [Options.none, hbudget, hpaths]

-- =============================================================== streams

variable {t : Text}

/-- Only an escape starts a colouring sequence. -/
theorem withoutColouring_eq (h : 0x1B ∉ t) : withoutColouring t = t := by
  unfold withoutColouring
  induction t with
  | nil => rfl
  | cons c rest ih =>
      obtain ⟨hc, hrest⟩ := not_or.mp (List.mem_cons.not.mp h)
      have hlength : colouringLength (c :: rest) = 0 := by
        cases rest with
        | nil => rfl
        | cons d rest => exact if_neg fun hboth => hc hboth.1.symm
      rw [withoutColouringAfter, hlength]
      exact congrArg (c :: ·) (ih hrest)

theorem surrogates?_eq_none (h : ∀ c ∈ t, c.isSurrogate = false) : surrogates? t = none := by
  have hall : (t.takeWhile fun c => !c.isSurrogate) = t :=
    List.takeWhile_eq_self_iff.mpr fun c hc => by rw [h c hc, Bool.not_false]
  unfold surrogates?
  simp [hall]

theorem echoed_of_isCarried (isScreen : Bool) (h : IsCarried t) : echoed isScreen t = .ok t := by
  have hkept : (if isScreen then t else withoutColouring t) = t := by
    rw [withoutColouring_eq h.1, ite_self]
  unfold echoed
  simp only [hkept, surrogates?_eq_none h.2]

theorem withoutControls_eq (h : IsPlain t) : withoutControls t = t := by
  refine List.filter_eq_self.mpr fun c hc => ?_
  have hnone : c ∉ ([0x07, 0x08, 0x0B, 0x0C, 0x0D] : List CodePoint) := by
    intro hmem
    have hcontrols : ([0x07, 0x08, 0x0B, 0x0C, 0x0D] : List CodePoint).all
        CodePoint.isControl := by decide
    have hcontrol := List.all_eq_true.mp hcontrols c hmem
    rw [(h c hc).1] at hcontrol
    cases hcontrol
  simpa using hnone

-- ============================================================= libraries

/-- Whatever the output is, and whatever the search for a file came to. There are no
pictures for names, so any names will do. -/
theorem standard_documented (isScreen : Bool) (found : Except Fault (Option Text))
    (isPicture : Text → Bool) : (Libraries.standard isScreen found).Documented isPicture where
  parse h hpaths := by
    show (Request.ofArguments _).invocation? = _
    rw [ofArguments_of_spells h hpaths]
    rfl
  echo h := echoed_of_isCarried isScreen h
  print h _ := congrArg Except.ok (withoutControls_eq h)
  printed _ := ⟨_, rfl⟩

end PathResolution.CommandLine
