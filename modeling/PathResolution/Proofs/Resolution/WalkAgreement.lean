/-
A resolution and a walk find the same.

The walk looks every link up on its own and goes on from what it found; the
loop puts the target's names in front of its queue. What ties the two is that
names in front of a queue can be spoken of without the rest of it. A queue
*shifts* from some names at a trail to other names at another trail if it does
so whatever waits behind them, and it *breaks* if it fails whatever waits
(`Shifts`, `Breaks`). Both compose, so a link that is looked up on its own
accounts for the names that it puts in front of the queue, and the induction
follows the walk: on how deep lookups may be nested, and then on the names
(`walkSpotNames_agrees`, `walkSpotWithin_agrees`).

The two differ on purpose in what they put up with. A walk gives up on too many
nested links, and then nothing is said of the loop. The loop gives up on links
with empty, overlong or unencodable targets, and on its budget. So an exact
answer is where the walk ends, if it ends; and where it ends is the answer for
every budget that is large enough, if all links can be followed.
-/
import PathResolution.Proofs.Resolution.Composition
import PathResolution.Proofs.Tree.Spot

namespace PathResolution

-- ================================================================= links

namespace Tree

/-- Every link of the tree can be followed. -/
def AllFollowable (t : Tree) (maxLinkSize : Nat) : Prop :=
  ∀ d name target, t.entry? d name = some (.link target) → Followable maxLinkSize target

variable {t : Tree} {mode : ExistenceMode} {maxLinkSize cost cost' budget : Nat} {d : DirId}
  {name : Name} {front front' front'' trail trail' trail'' pending : List Name}

/-- Links that can all be followed are followed alike. -/
theorem step_congr {maxLinkSize' : Nat} (h : t.AllFollowable maxLinkSize)
    (h' : t.AllFollowable maxLinkSize') (htrail : t.spelled trail = some (.directory d)) :
    t.step mode maxLinkSize name pending trail = t.step mode maxLinkSize' name pending trail := by
  cases t.meets d name with
  | dot hname => rw [hname, step_dot, step_dot]
  | dotDot hname => rw [hname, step_dotDot, step_dotDot]
  | directory c hdot hdotDot hentry =>
      rw [step_directory htrail hdot hdotDot hentry, step_directory htrail hdot hdotDot hentry]
  | file hdot hdotDot hentry =>
      rw [step_file htrail hdot hdotDot hentry, step_file htrail hdot hdotDot hentry]
  | link target hdot hdotDot hentry =>
      rw [step_link htrail hdot hdotDot hentry, step_link htrail hdot hdotDot hentry,
        refusal?_of_followable (h d name target hentry),
        refusal?_of_followable (h' d name target hentry)]
  | missing hdot hdotDot hentry =>
      rw [step_missing htrail hdot hdotDot hentry, step_missing htrail hdot hdotDot hentry]

theorem WellFormed.course_congr (wf : t.WellFormed) {maxLinkSize' : Nat}
    (h : t.AllFollowable maxLinkSize) (h' : t.AllFollowable maxLinkSize') :
    ∀ (budget : Nat) (pending trail : List Name), t.Stands pending trail →
      t.course mode maxLinkSize budget pending trail
        = t.course mode maxLinkSize' budget pending trail := by
  intro budget
  induction budget with
  | zero =>
      intro pending trail hstands
      cases pending <;> rfl
  | succ budget ih =>
      intro pending trail hstands
      cases pending with
      | nil => rfl
      | cons name pending =>
          obtain ⟨d, hd⟩ := hstands.directory
          rw [course, course, step_congr h' h hd]
          cases hstep : t.step mode maxLinkSize name pending trail with
          | onward pending₁ trail₁ => exact ih pending₁ trail₁ (wf.stands_of_step hd hstep).1
          | arrived trail₁ => rfl
          | stuck failure => rfl

-- ===================================================== fronts of a queue

/-- Whatever waits behind, the queue goes on from the one front to the other,
and takes so many names for it. -/
def Shifts (t : Tree) (mode : ExistenceMode) (maxLinkSize cost : Nat)
    (front trail front' trail' : List Name) : Prop :=
  ∀ back left, t.arrive mode maxLinkSize (cost + left) (front ++ back) trail
    = t.arrive mode maxLinkSize left (front' ++ back) trail'

/-- Whatever waits behind, the queue fails in this way, within so many names. -/
def Breaks (t : Tree) (mode : ExistenceMode) (maxLinkSize cost : Nat)
    (front trail : List Name) (how : Failure → Prop) : Prop :=
  ∀ back left, ∃ failure,
    t.arrive mode maxLinkSize (cost + left) (front ++ back) trail = .error failure ∧ how failure

theorem Shifts.refl : t.Shifts mode maxLinkSize 0 front trail front trail := by
  intro back left
  rw [Nat.zero_add]

theorem Shifts.trans (h : t.Shifts mode maxLinkSize cost front trail front' trail')
    (h' : t.Shifts mode maxLinkSize cost' front' trail' front'' trail'') :
    t.Shifts mode maxLinkSize (cost + cost') front trail front'' trail'' := by
  intro back left
  rw [Nat.add_assoc, h, h']

theorem Shifts.append (h : t.Shifts mode maxLinkSize cost front trail front' trail')
    (more : List Name) :
    t.Shifts mode maxLinkSize cost (front ++ more) trail (front' ++ more) trail' := by
  intro back left
  rw [List.append_assoc, List.append_assoc]
  exact h (more ++ back) left

theorem Breaks.append {how : Failure → Prop}
    (h : t.Breaks mode maxLinkSize cost front trail how) (more : List Name) :
    t.Breaks mode maxLinkSize cost (front ++ more) trail how := by
  intro back left
  rw [List.append_assoc]
  exact h (more ++ back) left

theorem Shifts.breaks {how : Failure → Prop}
    (h : t.Shifts mode maxLinkSize cost front trail front' trail')
    (h' : t.Breaks mode maxLinkSize cost' front' trail' how) :
    t.Breaks mode maxLinkSize (cost + cost') front trail how := by
  intro back left
  rw [Nat.add_assoc, h]
  exact h' back left

section

variable (wf : t.WellFormed) (htrail : t.spelled trail = some (.directory d))

include wf htrail

/-- Taking a name shifts the queue. -/
theorem WellFormed.shifts_of_step
    (hstep : t.step mode maxLinkSize name [] trail = .onward front' trail') (more : List Name) :
    t.Shifts mode maxLinkSize 1 (name :: more) trail (front' ++ more) trail' := by
  intro back left
  rw [arrive_of_directory htrail, Nat.add_comm, List.append_assoc]
  exact (wf.course_cons_append htrail name [] (more ++ back)).trans (by rw [hstep])

/-- A name that sticks breaks the queue. -/
theorem WellFormed.breaks_of_step {failure : Failure} {how : Failure → Prop} (hhow : how failure)
    (hstep : t.step mode maxLinkSize name [] trail = .stuck failure) (more : List Name) :
    t.Breaks mode maxLinkSize 1 (name :: more) trail how := by
  intro back left
  refine ⟨failure, ?_, hhow⟩
  rw [arrive_of_directory htrail, Nat.add_comm]
  exact (wf.course_cons_append htrail name [] (more ++ back)).trans (by rw [hstep])

end

-- ============================================================= agreement

/-- The loop ends where a walk ends: at the same spot, or with the same
number. -/
def EndsWith (t : Tree) (maxLinkSize : Nat) (front trail : List Name) : Except Fault Spot → Prop
  | .ok spot => ∃ cost trail', t.Rests trail' spot
      ∧ t.Shifts .exact maxLinkSize cost front trail [] trail'
  | .error fault => fault.code? ≠ some Errno.tooManyLinks →
      ∃ cost code, fault.code? = some code ∧ (code = Errno.noEntry ∨ code = Errno.notADirectory)
        ∧ t.Breaks .exact maxLinkSize cost front trail fun failure => failure.ReportedAs code

/-- The loop ends where a walk ends, or fails at a link that the walk follows
and it does not. -/
def Agrees (t : Tree) (maxLinkSize : Nat) (front trail : List Name) (outcome : Except Fault Spot) :
    Prop :=
  (¬ t.AllFollowable maxLinkSize
      ∧ ∃ cost, t.Breaks .exact maxLinkSize cost front trail fun _ => True)
    ∨ t.EndsWith maxLinkSize front trail outcome

theorem Agrees.of_shifts {outcome : Except Fault Spot}
    (hshift : t.Shifts .exact maxLinkSize cost front trail front' trail')
    (h : t.Agrees maxLinkSize front' trail' outcome) :
    t.Agrees maxLinkSize front trail outcome := by
  rcases h with ⟨hlinks, cost', hbreak⟩ | h
  · exact .inl ⟨hlinks, cost + cost', hshift.breaks hbreak⟩
  · cases outcome with
    | ok spot =>
        obtain ⟨cost', trail'', hrests, hshift'⟩ := h
        exact .inr ⟨cost + cost', trail'', hrests, hshift.trans hshift'⟩
    | error fault =>
        refine .inr fun hcode => ?_
        obtain ⟨cost', code, hfault, hkind, hbreak⟩ := h hcode
        exact ⟨cost + cost', code, hfault, hkind, hshift.breaks hbreak⟩

/-- A walk that goes on from where a lookup ended. -/
theorem Agrees.bind {outcome : Except Fault Spot} {next : Spot → Except Fault Spot}
    (h : t.Agrees maxLinkSize front trail outcome)
    (hnext : ∀ spot trail', t.Rests trail' spot → t.Agrees maxLinkSize pending trail' (next spot)) :
    t.Agrees maxLinkSize (front ++ pending) trail (outcome.bind next) := by
  rcases h with ⟨hlinks, cost, hbreak⟩ | h
  · exact .inl ⟨hlinks, cost, hbreak.append pending⟩
  · cases outcome with
    | ok spot =>
        obtain ⟨cost, trail', hrests, hshift⟩ := h
        exact (hnext spot trail' hrests).of_shifts (hshift.append pending)
    | error fault =>
        refine .inr fun hcode => ?_
        obtain ⟨cost, code, hfault, hkind, hbreak⟩ := h hcode
        exact ⟨cost, code, hfault, hkind, hbreak.append pending⟩

/-- The names of a walk, if its lookups of links agree with the loop. -/
theorem WellFormed.walkSpotNames_agrees (wf : t.WellFormed)
    {atLink : DirId → Text → Except Fault Spot} (path : Text)
    (hlink : ∀ holder trail target, t.spelled trail = some (.directory holder) →
      t.Agrees maxLinkSize (names target) (linkTrail target trail) (atLink holder target)) :
    ∀ (ns : List Name) (spot : Spot) (trail : List Name), t.Rests trail spot →
      t.Agrees maxLinkSize ns trail (t.walkSpotNames atLink path spot ns) := by
  intro ns
  induction ns with
  | nil =>
      intro spot trail hrests
      cases spot <;> exact .inr ⟨0, trail, hrests, Shifts.refl⟩
  | cons name ns ih =>
      intro spot trail hrests
      cases hrests with
      | @file trail holder last hd hentry =>
          refine .inr fun _ => ⟨0, Errno.notADirectory, rfl, .inr rfl, fun back left => ?_⟩
          have hfile : t.spelled (last :: trail) = some .file := (spelled_cons hd last).trans hentry
          exact ⟨_, arrive_of_file hfile (List.cons_ne_nil _ _),
            failureAt_reported (by decide) (by decide) _⟩
      | @directory trail d hd =>
          rw [walkSpotNames]
          cases t.meets d name with
          | dot hname =>
              rw [if_pos hname, hname]
              exact (ih _ _ (.directory hd)).of_shifts (wf.shifts_of_step hd step_dot ns)
          | dotDot hname =>
              rw [if_neg (by rw [hname]; decide), if_pos hname, hname]
              exact (ih _ _ (.directory (wf.spelled_tail hd))).of_shifts
                (wf.shifts_of_step hd step_dotDot ns)
          | directory c hdot hdotDot hentry =>
              rw [if_neg hdot, if_neg hdotDot, hentry]
              exact (ih _ _ (.directory ((spelled_cons hd name).trans hentry))).of_shifts
                (wf.shifts_of_step hd (step_directory hd hdot hdotDot hentry) ns)
          | file hdot hdotDot hentry =>
              rw [if_neg hdot, if_neg hdotDot, hentry]
              exact (ih _ _ (.file hd hentry)).of_shifts
                (wf.shifts_of_step hd (step_file hd hdot hdotDot hentry) ns)
          | missing hdot hdotDot hentry =>
              rw [if_neg hdot, if_neg hdotDot, hentry]
              refine .inr fun _ => ⟨1, Errno.noEntry, rfl, .inl rfl, ?_⟩
              refine wf.breaks_of_step hd
                (failureAt_reported (by decide) (by decide) (name :: trail)) ?_ ns
              exact step_missing hd hdot hdotDot hentry
          | link target hdot hdotDot hentry =>
              rw [if_neg hdot, if_neg hdotDot, hentry]
              have hstep : t.step .exact maxLinkSize name [] trail = _ :=
                step_link hd hdot hdotDot hentry
              cases hrefusal : refusal? maxLinkSize name target trail with
              | some failure =>
                  rw [hrefusal] at hstep
                  refine .inl ⟨fun hall => ?_, 1, wf.breaks_of_step hd trivial hstep ns⟩
                  rw [refusal?_of_followable (hall d name target hentry)] at hrefusal
                  cases hrefusal
              | none =>
                  rw [hrefusal] at hstep
                  have hshift := wf.shifts_of_step hd hstep ns
                  rw [List.append_nil] at hshift
                  exact Agrees.of_shifts hshift ((hlink d trail target hd).bind ih)

/-- A walk agrees with the loop, however deep its lookups may be nested. -/
theorem WellFormed.walkSpotWithin_agrees (wf : t.WellFormed) :
    ∀ (depth : Nat) (d : DirId) (trail : List Name) (path : Text),
      t.spelled trail = some (.directory d) →
      t.Agrees maxLinkSize (names path) (linkTrail path trail) (t.walkSpotWithin depth d path) := by
  intro depth
  induction depth with
  | zero =>
      intro d trail path hd
      unfold walkSpotWithin
      refine wf.walkSpotNames_agrees path ?_ _ _ _ (.directory (spelled_linkTrail hd path))
      intro holder trail target _
      exact .inr fun hcode => absurd rfl hcode
  | succ depth ih =>
      intro d trail path hd
      unfold walkSpotWithin
      refine wf.walkSpotNames_agrees path ?_ _ _ _ (.directory (spelled_linkTrail hd path))
      intro holder trail target hholder
      exact ih holder trail target hholder

/-- A walk from the root agrees with the loop on its names. -/
theorem WellFormed.walkSpot_agrees (wf : t.WellFormed) (path : Text) :
    t.Agrees maxLinkSize (names path) [] (t.walkSpot root path) := by
  have hstart : linkTrail path [] = [] := by
    unfold linkTrail
    split <;> rfl
  have hagrees : t.Agrees maxLinkSize _ _ (t.walkSpot root path) :=
    wf.walkSpotWithin_agrees maxLinkDepth root [] path spelled_nil
  rw [hstart] at hagrees
  exact hagrees

/-- From the root, what is said of fronts is said of courses. -/
theorem arrive_root : t.arrive mode maxLinkSize budget (front ++ []) []
    = t.course mode maxLinkSize budget front [] := by
  rw [List.append_nil]
  exact arrive_of_directory spelled_nil

/-- A walk ends where a course ends, unless it gives up. -/
theorem WellFormed.walkSpot_of_course (wf : t.WellFormed) {path : Text}
    (h : t.course .exact maxLinkSize budget (names path) [] = .ok trail) :
    (∃ fault, t.walkSpot root path = .error fault ∧ fault.code? = some Errno.tooManyLinks)
      ∨ ∃ spot, t.walkSpot root path = .ok spot ∧ t.Rests trail spot := by
  have hends : ∀ cost,
      t.arrive .exact maxLinkSize (cost + budget) (names path ++ []) [] = .ok trail := by
    intro cost
    rw [arrive_root, Nat.add_comm, course_mono, h]
    rw [h]
    intro hloops
    obtain ⟨e, he, -⟩ := hloops
    cases he
  have hnoBreak : ∀ cost how,
      ¬ t.Breaks .exact maxLinkSize cost (names path) [] how := by
    intro cost how hbreak
    obtain ⟨failure, hfailure, -⟩ := hbreak [] budget
    rw [hends] at hfailure
    cases hfailure
  rcases wf.walkSpot_agrees path with ⟨-, cost, hbreak⟩ | hwalk
  · exact absurd hbreak (hnoBreak cost _)
  · cases houtcome : t.walkSpot root path with
    | ok spot =>
        rw [houtcome] at hwalk
        obtain ⟨cost, trail', hrests, hshift⟩ := hwalk
        have hshift' := hshift [] budget
        rw [hends, List.append_nil, arrive_nil] at hshift'
        injection hshift' with htrail
        exact .inr ⟨spot, rfl, htrail ▸ hrests⟩
    | error fault =>
        rw [houtcome] at hwalk
        by_cases hcode : fault.code? = some Errno.tooManyLinks
        · exact .inl ⟨fault, rfl, hcode⟩
        · obtain ⟨cost, code, -, -, hbreak⟩ := hwalk hcode
          exact absurd hbreak (hnoBreak cost _)

/-- A course ends where a walk ends that does not give up, if all links can be
followed and the budget suffices. What suffices depends on no size. -/
theorem WellFormed.course_of_walkSpot (wf : t.WellFormed) (path : Text) :
    ∃ bound, ∀ maxLinkSize budget, t.AllFollowable maxLinkSize → bound ≤ budget →
      (∀ spot, t.walkSpot root path = .ok spot →
        ∃ trail, t.Rests trail spot
          ∧ t.course .exact maxLinkSize budget (names path) [] = .ok trail)
      ∧ ∀ fault, t.walkSpot root path = .error fault →
        fault.code? ≠ some Errno.tooManyLinks →
        ∃ code failure, fault.code? = some code
          ∧ (code = Errno.noEntry ∨ code = Errno.notADirectory)
          ∧ t.course .exact maxLinkSize budget (names path) [] = .error failure
          ∧ failure.ReportedAs code := by
  by_cases hsize : ∃ size, t.AllFollowable size
  · obtain ⟨size, hall⟩ := hsize
    have hcongr : ∀ maxLinkSize budget, t.AllFollowable maxLinkSize →
        t.course .exact maxLinkSize budget (names path) []
          = t.arrive .exact size budget (names path ++ []) [] := by
      intro maxLinkSize budget hall'
      rw [arrive_root]
      exact wf.course_congr hall' hall _ _ _ (.inl ⟨root, spelled_nil⟩)
    rcases wf.walkSpot_agrees path with ⟨hnot, -⟩ | hwalk
    · exact absurd hall hnot
    · cases houtcome : t.walkSpot root path with
      | ok spot =>
          rw [houtcome] at hwalk
          obtain ⟨cost, trail', hrests, hshift⟩ := hwalk
          refine ⟨cost, fun maxLinkSize budget hall' hbound => ⟨fun spot' heq => ?_, nofun⟩⟩
          injection heq with heq
          obtain ⟨left, rfl⟩ := Nat.exists_eq_add_of_le hbound
          refine ⟨trail', heq ▸ hrests, ?_⟩
          rw [hcongr _ _ hall', hshift [] left]
          rfl
      | error fault =>
          rw [houtcome] at hwalk
          by_cases hcode : fault.code? = some Errno.tooManyLinks
          · refine ⟨0, fun _ _ _ _ => ⟨nofun, fun fault' heq hcode' => ?_⟩⟩
            injection heq with heq
            exact absurd (heq ▸ hcode) hcode'
          · obtain ⟨cost, code, hfault, hkind, hbreak⟩ := hwalk hcode
            refine ⟨cost, fun maxLinkSize budget hall' hbound => ⟨nofun, fun fault' heq _ => ?_⟩⟩
            injection heq with heq
            obtain ⟨left, rfl⟩ := Nat.exists_eq_add_of_le hbound
            obtain ⟨failure, hfailure, hreported⟩ := hbreak [] left
            rw [← hcongr _ _ hall'] at hfailure
            exact ⟨code, failure, heq ▸ hfault, hkind, hfailure, hreported⟩
  · exact ⟨0, fun maxLinkSize _ hall _ => absurd ⟨maxLinkSize, hall⟩ hsize⟩

end Tree

-- ============================================================ whole paths

/-- An exact resolution of an absolute path and the walk along it find the same.
An answer is where the walk ends, literally, unless the walk gives up on nested
links. If all links can be read and the walk does not give up, then with a
budget that is large enough the answer is the one literal path of the spot where
the walk ends, or an error with the number of the walk's. -/
theorem resolved_agrees_with_walk (s : Store) (hs : s.Reachable) (env : Environment)
    (exact : Value) (hexact : exact.mode? env = .ok .exact) (path : Text)
    (habsolute : isAbsolute path = true) :
    s.tree.walk Tree.root path = (s.tree.walkSpot Tree.root path).map Spot.node
      ∧ (∀ limits canonical, s.resolved limits env path exact = .ok (.text canonical) →
          (∃ fault, s.tree.walk Tree.root path = .error fault
              ∧ fault.code? = some Errno.tooManyLinks)
            ∨ ∃ spot, s.tree.walkSpot Tree.root path = .ok spot
              ∧ s.tree.spot? (names canonical) = some spot
              ∧ s.tree.node? (names canonical) = some spot.node)
      ∧ ((∀ d name target, s.tree.entry? d name = some (.link target) →
            target ≠ [] ∧ ∃ bytes, utf8 target = .ok bytes) →
          (∀ fault, s.tree.walk Tree.root path = .error fault →
            fault.code? ≠ some Errno.tooManyLinks) →
          ∃ bound, ∀ limits : Limits, bound ≤ limits.loopBudget →
            (∀ d name target bytes, s.tree.entry? d name = some (.link target) →
              utf8 target = .ok bytes → bytes.length < limits.maxLinkSize) →
            (∀ spot, s.tree.walkSpot Tree.root path = .ok spot →
              ∃ ns, (∀ ns', s.tree.spot? ns' = some spot ↔ ns' = ns)
                ∧ s.resolved limits env path exact = .ok (.text (pathOf ns)))
            ∧ ∀ fault, s.tree.walk Tree.root path = .error fault →
              ∃ code, fault.code? = some code
                ∧ (code = Errno.noEntry ∨ code = Errno.notADirectory)
                ∧ FailsWith (s.resolved limits env path exact) code) := by
  have wf := hs.wellFormed
  have hwalk := s.tree.walk_eq_map_walkSpot Tree.root path
  have hqueue : queueOf s.workingDirectory path = names path := queueOf_of_isAbsolute habsolute
  have herror : ∀ fault, s.tree.walk Tree.root path = .error fault ↔
      s.tree.walkSpot Tree.root path = .error fault := by
    intro fault
    rw [hwalk]
    cases s.tree.walkSpot Tree.root path with
    | ok spot => exact ⟨nofun, nofun⟩
    | error fault' => simp [Except.map]
  refine ⟨hwalk, fun limits canonical h => ?_, fun hlinks hnoLoop => ?_⟩
  · obtain ⟨trail, hcourse, -, hnames, -, -⟩ := Store.course_of_resolved wf hexact h
    rw [hqueue] at hcourse
    rcases wf.tree.walkSpot_of_course hcourse with ⟨fault, hfault, hcode⟩ | ⟨spot, hspot, hrests⟩
    · exact .inl ⟨fault, (herror fault).mpr hfault, hcode⟩
    · have hliteral : s.tree.spot? (names canonical) = some spot := by
        rw [hnames, Tree.spot?_eq_some_iff, List.reverse_reverse]
        exact hrests
      exact .inr ⟨spot, hspot, hliteral, Tree.node?_of_spot? hliteral⟩
  · obtain ⟨bound, hbound⟩ := wf.tree.course_of_walkSpot path
    refine ⟨bound, fun limits hbudget hsizes => ?_⟩
    have hall : s.tree.AllFollowable limits.maxLinkSize := by
      intro d name target hentry
      obtain ⟨hne, bytes, hbytes⟩ := hlinks d name target hentry
      exact ⟨hne, bytes, hbytes, hsizes d name target bytes hentry hbytes⟩
    obtain ⟨hok, hfails⟩ := hbound limits.maxLinkSize limits.loopBudget hall hbudget
    rw [← hqueue] at hok hfails
    refine ⟨fun spot hspot => ?_, fun fault hfault => ?_⟩
    · obtain ⟨trail, hrests, hcourse⟩ := hok spot hspot
      have hliteral : s.tree.spot? trail.reverse = some spot := by
        rw [Tree.spot?_eq_some_iff, List.reverse_reverse]
        exact hrests
      refine ⟨trail.reverse, fun ns' => ⟨fun h => wf.tree.spot?_inj h hliteral, ?_⟩, ?_⟩
      · intro heq
        exact heq ▸ hliteral
      · exact (Store.resolved_eq_ok_iff wf hexact).mpr ⟨trail, hcourse, rfl⟩
    · obtain ⟨code, failure, hcode, hkind, hcourse, hreported⟩ :=
        hfails fault ((herror fault).mp hfault) (hnoLoop fault hfault)
      exact ⟨code, hcode, hkind, Store.failsWith_of_course wf hexact hcourse hreported⟩

/-- A file behind a link is found by both, from some budget on. -/
theorem resolved_agrees_with_walk_behind_link :
    Store.sample.tree.spot? (names (text "/d/f")) = some (.file 1 (text "f"))
      ∧ ∃ bound, ∀ limits : Limits, bound ≤ limits.loopBudget →
        Store.sample.resolved limits .empty (text "/l/f") (.truth true)
          = .ok (.text (text "/d/f")) := by
  have hwalk : Store.sample.tree.walkSpot Tree.root (text "/l/f") = .ok (.file 1 (text "f")) := rfl
  have hnode : Store.sample.tree.walk Tree.root (text "/l/f") = .ok .file := rfl
  have hanswer : Store.sample.resolved .standard .empty (text "/l/f") (.truth true)
      = .ok (.text (text "/d/f")) := rfl
  have hlinks : ∀ d name target, Store.sample.tree.entry? d name = some (.link target) →
      target = text "d" := by
    intro d name target h
    match d with
    | 0 =>
        have hentries : Store.sample.tree.entry? 0 name
            = [(text "d", Node.directory 1), (text "l", .link (text "d"))].lookup name := rfl
        rw [hentries, List.lookup_cons, List.lookup_cons, List.lookup_nil] at h
        split at h
        · cases h
        · split at h
          · injection h with h
            injection h with h
            exact h.symm
          · cases h
    | 1 =>
        have hentries : Store.sample.tree.entry? 1 name = [(text "f", Node.file)].lookup name := rfl
        rw [hentries, List.lookup_cons, List.lookup_nil] at h
        split at h <;> cases h
    | d + 2 => cases h
  have hbytes : utf8 (text "d") = .ok [0x64] := rfl
  obtain ⟨-, hfound, hresolved⟩ := resolved_agrees_with_walk .sample Store.sample_reachable .empty
    (.truth true) rfl (text "/l/f") rfl
  have hliteral : Store.sample.tree.spot? (names (text "/d/f")) = some (.file 1 (text "f")) := by
    rcases hfound .standard (text "/d/f") hanswer with ⟨fault, hfault, -⟩ | ⟨spot, hspot, h, -⟩
    · rw [hnode] at hfault
      cases hfault
    · rw [hwalk] at hspot
      injection hspot with hspot
      exact hspot ▸ h
  refine ⟨hliteral, ?_⟩
  obtain ⟨bound, hbound⟩ := hresolved
    (fun d name target h => hlinks d name target h ▸ ⟨by decide, _, hbytes⟩)
    (fun fault h => by rw [hnode] at h; cases h)
  refine ⟨bound, fun limits hbudget => ?_⟩
  have hsizes : ∀ d name target bytes, Store.sample.tree.entry? d name = some (.link target) →
      utf8 target = .ok bytes → bytes.length < limits.maxLinkSize := by
    intro d name target bytes hentry h
    rw [hlinks d name target hentry, hbytes] at h
    injection h with h
    rw [← h]
    exact limits.two_le_maxLinkSize
  obtain ⟨ns, hns, h⟩ := (hbound limits hbudget hsizes).1 _ hwalk
  rw [h, ← (hns _).mp hliteral]
  rfl

end PathResolution
