/-
What the limits do.

The budget and the size of the buffer decide how far a resolution gets, and
nothing else. Without a budget it takes a certain number of names, or goes round
in a cycle of links forever (`namesTaken`). A budget below that number ends it
with one error, and with any other budget it ends alike, since the same heads of
the loop are passed and the name that fails, if one does, is taken as well
(`Store.failsAs_tooManyLinks_iff`). In the same way a larger buffer only makes a
difference where a target did not fit (`Tree.course_widen`).
-/
import Mathlib.Data.Set.Card
import PathResolution.Proofs.Resolution.Composition
import PathResolution.Proofs.Resolution.Grounds

namespace PathResolution

-- ============================================================== counting

/-- How many names a resolution takes that has no budget. -/
noncomputable def namesTaken {σ : Type} (answer : Dialogue.Answering σ) (mode : ExistenceMode)
    (maxLinkSize : Nat) (path : Text) (s : σ) : ℕ∞ :=
  {taken : Nat | ∃ v s', Heads answer mode maxLinkSize path s taken v s' ∧ v.pending ≠ []}.encard

/-- Numbers among which are all smaller ones with each are counted by the first
that is not among them. -/
theorem lt_encard_iff {numbers : Set Nat} (hdown : ∀ n, n + 1 ∈ numbers → n ∈ numbers) (n : Nat) :
    (n : ℕ∞) < numbers.encard ↔ n ∈ numbers := by
  have hbelow : Antitone fun n => n ∈ numbers := antitone_nat_of_succ_le hdown
  constructor
  · intro hlt
    by_contra hn
    have hsubset : numbers ⊆ (Finset.range n : Set Nat) := by
      intro m hm
      rw [Finset.coe_range, Set.mem_Iio]
      by_contra hle
      exact hn (hbelow (not_lt.mp hle) hm)
    have hle := Set.encard_le_encard hsubset
    rw [Set.encard_coe_eq_coe_finsetCard, Finset.card_range] at hle
    exact absurd hlt (not_lt.mpr hle)
  · intro hn
    have hsubset : (Finset.range (n + 1) : Set Nat) ⊆ numbers := by
      intro m hm
      rw [Finset.coe_range, Set.mem_Iio] at hm
      exact hbelow (Nat.le_of_lt_succ hm) hn
    have hle := Set.encard_le_encard hsubset
    rw [Set.encard_coe_eq_coe_finsetCard, Finset.card_range] at hle
    exact lt_of_lt_of_le (by exact_mod_cast Nat.lt_succ_self n) hle

/-- The name with this number is taken. -/
theorem lt_namesTaken_iff {σ : Type} {answer : Dialogue.Answering σ} {mode : ExistenceMode}
    {maxLinkSize : Nat} {path : Text} {s : σ} (n : Nat) :
    (n : ℕ∞) < namesTaken answer mode maxLinkSize path s
      ↔ ∃ v s', Heads answer mode maxLinkSize path s n v s' ∧ v.pending ≠ [] := by
  refine lt_encard_iff (fun n hn => ?_) n
  obtain ⟨v, s', h, -⟩ := hn
  obtain ⟨name, pending, trail, cursor, s₁, hhead⟩ := h.earlier
  exact ⟨_, s₁, hhead, List.cons_ne_nil _ _⟩

-- ============================================================== failures

/-- A course that fails, and is reported with this number. -/
def FailsAs (outcome : Except Failure (List Name)) (code : Errno) : Prop :=
  ∃ failure, outcome = .error failure ∧ failure.ReportedAs code

theorem failsAs_of_loopsOut {outcome : Except Failure (List Name)} (h : Tree.LoopsOut outcome) :
    FailsAs outcome Errno.tooManyLinks := by
  obtain ⟨e, he, hcode⟩ := h
  exact ⟨_, he, hcode ▸ resolution_reported e⟩

variable {s s' : Store} {limits : Limits} {env : Environment} {path : Text} {exact : Value}
  {mode : ExistenceMode} {maxLinkSize budget taken : Nat} {v : Visit} {code : Errno}

/-- A resolution fails as its course does. -/
theorem Store.failsWith_iff (hs : s.WellFormed) (hmode : exact.mode? env = .ok mode) :
    FailsWith (s.resolved limits env path exact) code
      ↔ FailsAs (s.tree.course mode limits.maxLinkSize limits.loopBudget
          (queueOf s.workingDirectory path) []) code := by
  constructor
  · intro h
    obtain ⟨e, he, hcode⟩ := h
    obtain ⟨failure, hcourse, hfailure⟩ := (resolved_eq_error_iff hs hmode).mp he
    obtain ⟨code', hreported⟩ := Tree.reported_of_course _ _ _ hcourse
    obtain ⟨e', he', hcode'⟩ := hreported path
    obtain rfl : e = e' := Failure.resolution.inj (hfailure.trans he')
    exact ⟨failure, hcourse, hcode ▸ hcode' ▸ hreported⟩
  · intro h
    obtain ⟨failure, hcourse, hreported⟩ := h
    exact failsWith_of_course hs hmode hcourse hreported

-- ============================================================== the budget

/-- From a head the course goes on as the loop does. -/
theorem Heads.course_eq (hs : s.WellFormed)
    (h : Heads Store.answer mode maxLinkSize path s taken v s') (left : Nat) :
    s.tree.course mode maxLinkSize (taken + left) (queueOf s.workingDirectory path) []
      = s.tree.course mode maxLinkSize left v.pending v.trail := by
  induction h generalizing left with
  | first hdirectory _ =>
      obtain ⟨hstart, -⟩ := Store.enters hs path
      rw [hdirectory] at hstart
      injection hstart with hstart
      rw [Nat.zero_add, hstart]
      rfl
  | @next taken name pending trail cursor s' v hhead hvalue ih =>
      obtain ⟨view, htracks⟩ := hhead.tracks hs
      rw [hvalue] at htracks
      rw [show taken + 1 + left = taken + (left + 1) by omega, ih, Tree.course,
        htracks.onward.1]

/-- A course runs out of its budget if more names are to be taken than it
has. -/
theorem Store.failsAs_tooManyLinks_iff (hs : s.WellFormed) :
    FailsAs (s.tree.course mode maxLinkSize budget (queueOf s.workingDirectory path) [])
        Errno.tooManyLinks
      ↔ (budget : ℕ∞) < namesTaken Store.answer mode maxLinkSize path s := by
  rw [lt_namesTaken_iff]
  constructor
  · intro h
    obtain ⟨failure, hcourse, hreported⟩ := h
    obtain ⟨cursor, hends⟩ := Store.loopEnds hs mode maxLinkSize path budget
    rw [hcourse] at hends
    cases hends with
    | outOfBudget hhead => exact ⟨_, _, hhead, List.cons_ne_nil _ _⟩
    | stuck _ hhead hvalue =>
        -- no obstacle is reported with this number
        obtain ⟨d, code, -, -, hobstacle, hbehind⟩ := hhead.obstacle hs hvalue
        obtain ⟨e, he, rfl, -⟩ := hbehind path
        obtain ⟨e', he', hcode⟩ := hreported path
        obtain rfl : e = e' := Failure.resolution.inj (he.symm.trans he')
        exact absurd hcode hobstacle.ne_tooManyLinks
  · intro h
    obtain ⟨⟨pending, trail, cursor⟩, s', hhead, hpending⟩ := h
    rw [← Nat.add_zero budget, hhead.course_eq hs]
    cases pending with
    | nil => exact absurd rfl hpending
    | cons name pending => exact ⟨_, rfl, resolution_reported _⟩

/-- Budgets that suffice are alike. -/
theorem Store.course_eq_of_namesTaken_le (hs : s.WellFormed) {budget' : Nat}
    (hsuffices : namesTaken Store.answer mode maxLinkSize path s ≤ budget)
    (hle : budget ≤ budget') :
    s.tree.course mode maxLinkSize budget' (queueOf s.workingDirectory path) []
      = s.tree.course mode maxLinkSize budget (queueOf s.workingDirectory path) [] := by
  obtain ⟨more, rfl⟩ := Nat.exists_eq_add_of_le hle
  refine Tree.course_mono more budget _ [] fun hloops => ?_
  exact absurd ((failsAs_tooManyLinks_iff hs).mp (failsAs_of_loopsOut hloops))
    (not_lt.mpr hsuffices)

/-- The names of an answer were all taken. -/
theorem Store.length_le_namesTaken (hs : s.WellFormed) {trail : List Name}
    (h : s.tree.course mode maxLinkSize budget (queueOf s.workingDirectory path) [] = .ok trail) :
    (trail.length : ℕ∞) ≤ namesTaken Store.answer mode maxLinkSize path s := by
  by_cases hforever : namesTaken Store.answer mode maxLinkSize path s = ⊤
  · rw [hforever]
    exact le_top
  · -- the least budget that suffices gives the same answer
    obtain ⟨needed, hneeded⟩ := ENat.ne_top_iff_exists.mp hforever
    have hbudget : needed ≤ budget := by
      by_contra hshort
      have hshort : (budget : ℕ∞) < namesTaken Store.answer mode maxLinkSize path s := by
        rw [← hneeded]
        exact_mod_cast not_le.mp hshort
      obtain ⟨failure, hfails, -⟩ := (failsAs_tooManyLinks_iff hs).mpr hshort
      rw [h] at hfails
      cases hfails
    rw [course_eq_of_namesTaken_le hs (le_of_eq hneeded.symm) hbudget] at h
    obtain ⟨cost, hcost, hlength, -⟩ :=
      hs.tree.arrive_append _ _ _ (.inl ⟨Tree.root, Tree.spelled_nil⟩) h
    rw [List.length_nil, Nat.zero_add] at hlength
    rw [← hneeded]
    exact_mod_cast hlength.trans hcost

-- ============================================================== the buffer

section

variable {maxLinkSize' : Nat} {name : Name} {pending trail : List Name} {t : Tree}

/-- A larger buffer changes nothing for a target that fits. -/
theorem refusal?_widen (hle : maxLinkSize ≤ maxLinkSize') (name : Name) (target : Text)
    (trail : List Name) :
    (∃ failure, refusal? maxLinkSize name target trail = some failure
        ∧ failure.ReportedAs Errno.nameTooLong)
      ∨ refusal? maxLinkSize' name target trail = refusal? maxLinkSize name target trail := by
  unfold refusal?
  split
  · exact .inr rfl
  · split
    · exact .inr rfl
    · next bytes _ =>
      by_cases hsize : maxLinkSize ≤ bytes.length
      · rw [if_pos hsize]
        exact .inl ⟨_, rfl, resolution_reported _⟩
      · rw [if_neg hsize, if_neg fun hsize' => hsize (hle.trans hsize')]
        exact .inr rfl

theorem Tree.step_widen (hle : maxLinkSize ≤ maxLinkSize') (name : Name)
    (pending trail : List Name) :
    (∃ failure, t.step mode maxLinkSize name pending trail = .stuck failure
        ∧ failure.ReportedAs Errno.nameTooLong)
      ∨ t.step mode maxLinkSize' name pending trail
          = t.step mode maxLinkSize name pending trail := by
  unfold step
  split
  · exact .inr rfl
  · split
    · exact .inr rfl
    · split
      · exact .inr rfl
      · exact .inr rfl
      · next target _ =>
        rcases refusal?_widen hle name target trail with ⟨failure, hrefusal, hreported⟩ | hsame
        · rw [hrefusal]
          exact .inl ⟨failure, rfl, hreported⟩
        · rw [hsame]
          exact .inr rfl
      · exact .inr rfl

/-- A course on which every target fits is the course for every larger
buffer. -/
theorem Tree.course_widen (hle : maxLinkSize ≤ maxLinkSize') :
    ∀ (budget : Nat) (pending trail : List Name),
      ¬ FailsAs (t.course mode maxLinkSize budget pending trail) Errno.nameTooLong →
      t.course mode maxLinkSize' budget pending trail
        = t.course mode maxLinkSize budget pending trail := by
  intro budget
  induction budget with
  | zero =>
      intro pending trail _
      cases pending <;> rfl
  | succ budget ih =>
      intro pending trail h
      cases pending with
      | nil => rfl
      | cons name pending =>
          rw [course] at h ⊢
          rw [course]
          rcases step_widen hle name pending trail with ⟨failure, hstep, hreported⟩ | hsame
          · rw [hstep] at h
            exact absurd ⟨failure, rfl, hreported⟩ h
          · rw [hsame]
            cases hstep : t.step mode maxLinkSize name pending trail with
            | onward pending' trail' =>
                rw [hstep] at h
                exact ih pending' trail' h
            | arrived trail' => rfl
            | stuck failure => rfl

end

-- ============================================================== outcomes

theorem Store.resolved_eq_of_course_eq (hs : s.WellFormed) (hmode : exact.mode? env = .ok mode)
    {limits' : Limits}
    (h : s.tree.course mode limits.maxLinkSize limits.loopBudget
        (queueOf s.workingDirectory path) []
      = s.tree.course mode limits'.maxLinkSize limits'.loopBudget
          (queueOf s.workingDirectory path) []) :
    s.resolved limits env path exact = s.resolved limits' env path exact := by
  rw [resolved_eq hs hmode, resolved_eq hs hmode]
  unfold Tree.canonical
  rw [h]

/-- The limits only cut a resolution short. For every size of the buffer there
is a number of names, those that are taken without a budget: a smaller budget
ends in too many links, and all others end alike, in something else; and no
answer has more names. And what is ended neither by the budget nor by the size
of the buffer ends alike with larger limits. -/
theorem limits_only_cut_short (s : Store) (hs : s.Reachable) (env : Environment) (path : Text)
    (exact : Value) (mode : ExistenceMode) (hmode : exact.mode? env = .ok mode) :
    (∀ maxLinkSize, let needed := namesTaken Store.answer mode maxLinkSize path s
        (∀ limits : Limits, limits.maxLinkSize = maxLinkSize → limits.loopBudget < needed →
            FailsWith (s.resolved limits env path exact) Errno.tooManyLinks)
          ∧ (∀ limits limits' : Limits, limits.maxLinkSize = maxLinkSize →
              limits'.maxLinkSize = maxLinkSize → needed ≤ limits.loopBudget →
              needed ≤ limits'.loopBudget →
              s.resolved limits env path exact = s.resolved limits' env path exact
                ∧ ¬ FailsWith (s.resolved limits env path exact) Errno.tooManyLinks)
          ∧ ∀ (limits : Limits) (canonical : Text), limits.maxLinkSize = maxLinkSize →
              s.resolved limits env path exact = .ok (.text canonical) →
              ((names canonical).length : ℕ∞) ≤ needed)
      ∧ ∀ limits limits' : Limits, limits.loopBudget ≤ limits'.loopBudget →
        limits.maxLinkSize ≤ limits'.maxLinkSize →
        ¬ FailsWith (s.resolved limits env path exact) Errno.tooManyLinks →
        ¬ FailsWith (s.resolved limits env path exact) Errno.nameTooLong →
        s.resolved limits' env path exact = s.resolved limits env path exact := by
  have wf := hs.wellFormed
  refine ⟨fun maxLinkSize => ⟨?_, ?_, ?_⟩, ?_⟩
  · rintro limits rfl hshort
    exact (Store.failsWith_iff wf hmode).mpr ((Store.failsAs_tooManyLinks_iff wf).mpr hshort)
  · rintro limits limits' rfl hsize hneeded hneeded'
    refine ⟨Store.resolved_eq_of_course_eq wf hmode ?_, fun hloops => ?_⟩
    · rw [hsize]
      rcases le_total limits.loopBudget limits'.loopBudget with hle | hle
      · exact (Store.course_eq_of_namesTaken_le wf hneeded hle).symm
      · exact Store.course_eq_of_namesTaken_le wf hneeded' hle
    · have hshort := (Store.failsAs_tooManyLinks_iff wf).mp
        ((Store.failsWith_iff wf hmode).mp hloops)
      exact absurd hshort (not_lt.mpr hneeded)
  · intro limits canonical hsize h
    obtain ⟨trail, hcourse, -, hnames, -, -⟩ := Store.course_of_resolved wf hmode h
    rw [hnames, List.length_reverse]
    exact hsize ▸ Store.length_le_namesTaken wf hcourse
  · intro limits limits' hbudget hsize hloops hlong
    rw [Store.failsWith_iff wf hmode] at hloops hlong
    obtain ⟨more, hmore⟩ := Nat.exists_eq_add_of_le hbudget
    have hlonger := Tree.course_mono more _ _ _ fun h => hloops (failsAs_of_loopsOut h)
    apply Store.resolved_eq_of_course_eq wf hmode
    rw [← hlonger] at hlong ⊢
    rw [hmore]
    exact Tree.course_widen hsize _ _ _ hlong

/-- A name, the way back, a link and what it leads to are four names. -/
theorem limits_only_cut_short_below_four :
    namesTaken Store.answer .exact 4096 (text "../l") .sample = 4 := by
  obtain ⟨hthreshold, -⟩ := limits_only_cut_short .sample Store.sample_reachable .empty
    (text "../l") (.truth true) .exact rfl
  obtain ⟨hshort, hlong, -⟩ := hthreshold 4096
  let four : Limits := ⟨4, 4096, by decide, by decide⟩
  let three : Limits := ⟨3, 4096, by decide, by decide⟩
  have hfour : Store.sample.resolved four .empty (text "../l") (.truth true)
      = .ok (.text (text "/d")) := rfl
  have hthree : FailsWith (Store.sample.resolved three .empty (text "../l") (.truth true))
      Errno.tooManyLinks := ⟨_, rfl, rfl⟩
  apply le_antisymm
  · by_contra hmore
    obtain ⟨e, he, -⟩ := hshort four rfl (not_le.mp hmore)
    rw [hfour] at he
    cases he
  · by_contra hfewer
    have hneeded : namesTaken Store.answer .exact 4096 (text "../l") .sample ≤ 3 := by
      apply Order.le_of_lt_add_one
      rw [show (3 : ℕ∞) + 1 = 4 from rfl]
      exact not_le.mp hfewer
    exact (hlong three three rfl rfl hneeded hneeded).2 hthree

end PathResolution
