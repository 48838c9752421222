/-
What a walk meets on its way.

A walk looks every link up on its own, inside the lookup that met it, and stops
only at links that are nested too deep. What it meets on its way is not to be
seen in that recursion. So the way is told again as a journey without any limit:
the legs that lie ahead are names, each with the path that it is a name of and
with the number of links that it is nested in; taking a leg leads on, or follows
a link and puts the legs of its target in front, or ends (`advance`). `travel`
takes a number of legs and tells which links were followed.

A walk makes the journey, as long as no link is nested too deep (`Fares`). The
induction is on how deep lookups may still be nested, and then on the names, and
it holds whatever legs wait behind (`Fulfils`), since the lookup of a link hands
over to the legs behind it. So the limit that a walk keeps to is one on nesting.
It follows that the links of a walk are bounded, but the bound is exponential:
every link can lead to as many links as its target has names
(`Fares.length_le`).
-/
import Mathlib.Algebra.Ring.GeomSum
import PathResolution.Proofs.Resolution.Course
import PathResolution.Proofs.Tree.Spot

namespace PathResolution

-- ============================================================== journeys

/-- A name that lies ahead of a lookup. -/
structure Leg where
  name : Name
  /-- The path that it is a name of. -/
  path : Text
  /-- How many links it is nested in. -/
  depth : Nat
  deriving DecidableEq, Repr

/-- The legs of a path. -/
def legs (depth : Nat) (path : Text) : List Leg := (names path).map fun name => ⟨name, path, depth⟩

/-- A link that is met, and what it points to. -/
structure Detour where
  leg : Leg
  target : Text
  deriving DecidableEq, Repr

/-- Where a lookup is, and what lies ahead of it. -/
structure Journey where
  spot : Spot
  ahead : List Leg
  deriving DecidableEq, Repr

def Journey.setOut (d : DirId) (path : Text) : Journey :=
  ⟨.directory (Tree.walkStart d path), legs 0 path⟩

theorem map_name_legs (depth : Nat) (path : Text) : (legs depth path).map Leg.name = names path := by
  simp [legs, Function.comp_def]

/-- The legs of a path weigh alike. -/
theorem sum_map_legs (f : Nat → Nat) (depth : Nat) (path : Text) :
    ((legs depth path).map fun leg => f leg.depth).sum = (names path).length * f depth := by
  simp [legs, Function.comp_def]

theorem Journey.setOut_of_isAbsolute {path : Text} (habsolute : isAbsolute path = true)
    (d : DirId) : setOut d path = setOut Tree.root path := by
  rw [setOut, setOut, Tree.walkStart, Tree.walkStart, if_pos habsolute, if_pos habsolute]

/-- What the next leg of a journey is. -/
inductive Advance where
  | onward (next : Journey)
  | followed (detour : Detour) (next : Journey)
  | ended (outcome : Except Fault Spot)
  deriving DecidableEq, Repr

namespace Tree

/-- Takes the next leg. Every link is followed, however many were before. -/
def advance (t : Tree) : Journey → Advance
  | ⟨spot, []⟩ => .ended (.ok spot)
  | ⟨.file _ _, leg :: _⟩ => .ended (.error (faultAt Errno.notADirectory leg.path))
  | ⟨.directory d, leg :: rest⟩ =>
    if leg.name = dot then .onward ⟨.directory d, rest⟩
    else if leg.name = dotDot then .onward ⟨.directory (t.parent d), rest⟩
    else
      match t.entry? d leg.name with
      | none => .ended (.error (faultAt Errno.noEntry leg.path))
      | some (.directory c) => .onward ⟨.directory c, rest⟩
      | some .file => .onward ⟨.file d leg.name, rest⟩
      | some (.link target) =>
        .followed ⟨leg, target⟩
          ⟨.directory (walkStart d target), legs (leg.depth + 1) target ++ rest⟩

/-- Takes so many legs, and tells the links that were followed, in order. -/
def travel (t : Tree) : Nat → Journey → Option (List Detour × Journey)
  | 0, j => some ([], j)
  | n + 1, j =>
    match t.advance j with
    | .onward next => t.travel n next
    | .followed detour next => (t.travel n next).map fun way => (detour :: way.1, way.2)
    | .ended _ => none

/-- All that the next leg can be. -/
inductive Takes (t : Tree) : Journey → Advance → Prop
  | arrived (spot : Spot) : Takes t ⟨spot, []⟩ (.ended (.ok spot))
  | dot {d : DirId} {leg : Leg} {rest : List Leg} : leg.name = PathResolution.dot →
      Takes t ⟨.directory d, leg :: rest⟩ (.onward ⟨.directory d, rest⟩)
  | dotDot {d : DirId} {leg : Leg} {rest : List Leg} : leg.name = PathResolution.dotDot →
      Takes t ⟨.directory d, leg :: rest⟩ (.onward ⟨.directory (t.parent d), rest⟩)
  | directory {d c : DirId} {leg : Leg} {rest : List Leg} :
      leg.name ≠ PathResolution.dot → leg.name ≠ PathResolution.dotDot →
      t.entry? d leg.name = some (.directory c) →
      Takes t ⟨.directory d, leg :: rest⟩ (.onward ⟨.directory c, rest⟩)
  | file {d : DirId} {leg : Leg} {rest : List Leg} :
      leg.name ≠ PathResolution.dot → leg.name ≠ PathResolution.dotDot →
      t.entry? d leg.name = some .file →
      Takes t ⟨.directory d, leg :: rest⟩ (.onward ⟨.file d leg.name, rest⟩)
  | link {d : DirId} {leg : Leg} {rest : List Leg} {target : Text} :
      leg.name ≠ PathResolution.dot → leg.name ≠ PathResolution.dotDot →
      t.entry? d leg.name = some (.link target) →
      Takes t ⟨.directory d, leg :: rest⟩
        (.followed ⟨leg, target⟩
          ⟨.directory (walkStart d target), legs (leg.depth + 1) target ++ rest⟩)
  | missing {d : DirId} {leg : Leg} {rest : List Leg} :
      leg.name ≠ PathResolution.dot → leg.name ≠ PathResolution.dotDot →
      t.entry? d leg.name = none →
      Takes t ⟨.directory d, leg :: rest⟩ (.ended (.error (faultAt Errno.noEntry leg.path)))
  | behindFile {d : DirId} {name : Name} {leg : Leg} {rest : List Leg} :
      Takes t ⟨.file d name, leg :: rest⟩ (.ended (.error (faultAt Errno.notADirectory leg.path)))

variable {t : Tree} {n limit : Nat} {spot found : Spot} {j next last : Journey} {detour : Detour}
  {links links' : List Detour} {front front' : List Leg} {outcome : Except Fault Spot}

section

variable {d c : DirId} {leg : Leg} {rest : List Leg}

theorem advance_dot (h : leg.name = dot) :
    t.advance ⟨.directory d, leg :: rest⟩ = .onward ⟨.directory d, rest⟩ := by
  rw [advance, if_pos h]

theorem advance_dotDot (h : leg.name = dotDot) :
    t.advance ⟨.directory d, leg :: rest⟩ = .onward ⟨.directory (t.parent d), rest⟩ := by
  rw [advance, if_neg (by rw [h]; decide), if_pos h]

variable (hdot : leg.name ≠ dot) (hdotDot : leg.name ≠ dotDot)

include hdot hdotDot

theorem advance_directory (h : t.entry? d leg.name = some (.directory c)) :
    t.advance ⟨.directory d, leg :: rest⟩ = .onward ⟨.directory c, rest⟩ := by
  rw [advance, if_neg hdot, if_neg hdotDot, h]

theorem advance_file (h : t.entry? d leg.name = some .file) :
    t.advance ⟨.directory d, leg :: rest⟩ = .onward ⟨.file d leg.name, rest⟩ := by
  rw [advance, if_neg hdot, if_neg hdotDot, h]

theorem advance_link {target : Text} (h : t.entry? d leg.name = some (.link target)) :
    t.advance ⟨.directory d, leg :: rest⟩
      = .followed ⟨leg, target⟩
          ⟨.directory (walkStart d target), legs (leg.depth + 1) target ++ rest⟩ := by
  rw [advance, if_neg hdot, if_neg hdotDot, h]

theorem advance_missing (h : t.entry? d leg.name = none) :
    t.advance ⟨.directory d, leg :: rest⟩ = .ended (.error (faultAt Errno.noEntry leg.path)) := by
  rw [advance, if_neg hdot, if_neg hdotDot, h]

end

theorem takes (t : Tree) (j : Journey) : t.Takes j (t.advance j) := by
  obtain ⟨spot, ahead⟩ := j
  cases ahead with
  | nil => cases spot <;> exact .arrived _
  | cons leg rest =>
      cases spot with
      | file d name => exact .behindFile
      | directory d =>
          cases t.meets d leg.name with
          | dot hname => exact advance_dot hname ▸ .dot hname
          | dotDot hname => exact advance_dotDot hname ▸ .dotDot hname
          | directory c hdot hdotDot hentry =>
              exact advance_directory hdot hdotDot hentry ▸ .directory hdot hdotDot hentry
          | file hdot hdotDot hentry =>
              exact advance_file hdot hdotDot hentry ▸ .file hdot hdotDot hentry
          | link target hdot hdotDot hentry =>
              exact advance_link hdot hdotDot hentry ▸ .link hdot hdotDot hentry
          | missing hdot hdotDot hentry =>
              exact advance_missing hdot hdotDot hentry ▸ .missing hdot hdotDot hentry

/-- A leg that leads on is dropped. -/
theorem ahead_of_onward (h : t.advance j = .onward next) : ∃ leg, j.ahead = leg :: next.ahead := by
  have htakes := t.takes j
  rw [h] at htakes
  cases htakes <;> exact ⟨_, rfl⟩

/-- A link that is followed is replaced by its target. -/
theorem ahead_of_followed (h : t.advance j = .followed detour next) :
    ∃ rest, j.ahead = detour.leg :: rest
      ∧ next.ahead = legs (detour.leg.depth + 1) detour.target ++ rest
      ∧ ∃ d, t.entry? d detour.leg.name = some (.link detour.target) := by
  have htakes := t.takes j
  rw [h] at htakes
  cases htakes with
  | link _ _ hentry => exact ⟨_, rfl, rfl, _, hentry⟩

/-- A journey does not end at a link. -/
theorem code?_of_ended {fault : Fault} (h : t.advance j = .ended (.error fault)) :
    fault.code? = some Errno.noEntry ∨ fault.code? = some Errno.notADirectory := by
  have htakes := t.takes j
  rw [h] at htakes
  cases htakes with
  | missing => exact .inl rfl
  | behindFile => exact .inr rfl

-- ================================================================= travel

theorem travel_of_onward (h : t.advance j = .onward next) :
    t.travel (n + 1) j = t.travel n next := by
  rw [travel, h]

theorem travel_of_followed (h : t.advance j = .followed detour next) :
    t.travel (n + 1) j = (t.travel n next).map fun way => (detour :: way.1, way.2) := by
  rw [travel, h]

theorem travel_of_ended (h : t.advance j = .ended outcome) : t.travel (n + 1) j = none := by
  rw [travel, h]

/-- The first leg of a journey leads on, or is a link that is followed. -/
theorem travel_succ (h : t.travel (n + 1) j = some (links, last)) :
    (∃ next, t.advance j = .onward next ∧ t.travel n next = some (links, last))
      ∨ ∃ detour next rest, t.advance j = .followed detour next ∧ links = detour :: rest
        ∧ t.travel n next = some (rest, last) := by
  cases hadvance : t.advance j with
  | onward next =>
      rw [travel_of_onward hadvance] at h
      exact .inl ⟨next, rfl, h⟩
  | followed detour next =>
      rw [travel_of_followed hadvance] at h
      obtain ⟨⟨rest, last'⟩, hrest, heq⟩ := Option.map_eq_some_iff.mp h
      cases heq
      exact .inr ⟨detour, next, rest, rfl, rfl, hrest⟩
  | ended outcome =>
      rw [travel_of_ended hadvance] at h
      cases h

/-- A link that lies ahead is the next to be followed. -/
theorem travel_concat (htravel : t.travel n j = some (links, last))
    (hadvance : t.advance last = .followed detour next) :
    t.travel (n + 1) j = some (links ++ [detour], next) := by
  induction n generalizing j links with
  | zero =>
      cases htravel
      exact travel_of_followed hadvance
  | succ n ih =>
      rcases travel_succ htravel with ⟨mid, hfirst, hmid⟩ | ⟨first, mid, rest, hfirst, rfl, hmid⟩
      · rw [travel_of_onward hfirst]
        exact ih hmid
      · rw [travel_of_followed hfirst, ih hmid]
        rfl

-- ================================================================== fares

/-- How a journey ends that follows no link nested in `limit` others or more,
and the links that it follows. -/
inductive Fares (t : Tree) (limit : Nat) : Journey → List Detour → Except Fault Spot → Prop
  | ended {j : Journey} {outcome : Except Fault Spot} : t.advance j = .ended outcome →
      Fares t limit j [] outcome
  | onward {j next : Journey} {links : List Detour} {outcome : Except Fault Spot} :
      t.advance j = .onward next → Fares t limit next links outcome → Fares t limit j links outcome
  | followed {j next : Journey} {detour : Detour} {links : List Detour}
      {outcome : Except Fault Spot} : t.advance j = .followed detour next →
      detour.leg.depth < limit → Fares t limit next links outcome →
      Fares t limit j (detour :: links) outcome
  | tooDeep {j next : Journey} {detour : Detour} : t.advance j = .followed detour next →
      limit ≤ detour.leg.depth →
      Fares t limit j [] (.error (faultAt Errno.tooManyLinks detour.leg.path))

section

variable (h : t.Fares limit j links outcome)

include h

theorem Fares.of_ended {outcome' : Except Fault Spot} (hadvance : t.advance j = .ended outcome') :
    outcome = outcome' := by
  cases h with
  | ended hother => exact Advance.ended.inj (hother.symm.trans hadvance)
  | onward hother => cases hother.symm.trans hadvance
  | followed hother => cases hother.symm.trans hadvance
  | tooDeep hother => cases hother.symm.trans hadvance

theorem Fares.of_onward (hadvance : t.advance j = .onward next) :
    t.Fares limit next links outcome := by
  cases h with
  | ended hother => cases hother.symm.trans hadvance
  | onward hother hnext =>
      cases hother.symm.trans hadvance
      exact hnext
  | followed hother => cases hother.symm.trans hadvance
  | tooDeep hother => cases hother.symm.trans hadvance

theorem Fares.of_followed (hadvance : t.advance j = .followed detour next) :
    (detour.leg.depth < limit ∧ ∃ rest, links = detour :: rest ∧ t.Fares limit next rest outcome)
      ∨ limit ≤ detour.leg.depth
        ∧ outcome = .error (faultAt Errno.tooManyLinks detour.leg.path) := by
  cases h with
  | ended hother => cases hother.symm.trans hadvance
  | onward hother => cases hother.symm.trans hadvance
  | followed hother hlimit hnext =>
      cases hother.symm.trans hadvance
      exact .inl ⟨hlimit, _, rfl, hnext⟩
  | tooDeep hother hlimit =>
      cases hother.symm.trans hadvance
      exact .inr ⟨hlimit, rfl⟩

end

/-- Such a journey is a part of the journey without a limit, and it is cut off
only at a link that is nested too deep. -/
theorem Fares.travel (h : t.Fares limit j links outcome) :
    (∀ detour ∈ links, detour.leg.depth < limit)
      ∧ ∃ n last, t.travel n j = some (links, last)
        ∧ (t.advance last = .ended outcome
          ∨ ∃ detour next, t.advance last = .followed detour next ∧ limit ≤ detour.leg.depth
            ∧ outcome = .error (faultAt Errno.tooManyLinks detour.leg.path)) := by
  induction h with
  | ended hadvance => exact ⟨nofun, 0, _, rfl, .inl hadvance⟩
  | onward hadvance _ ih =>
      obtain ⟨hdepth, n, last, htravel, hend⟩ := ih
      exact ⟨hdepth, n + 1, last, (travel_of_onward hadvance).trans htravel, hend⟩
  | followed hadvance hlimit _ ih =>
      obtain ⟨hdepth, n, last, htravel, hend⟩ := ih
      refine ⟨List.forall_mem_cons.mpr ⟨hlimit, hdepth⟩, n + 1, last, ?_, hend⟩
      rw [travel_of_followed hadvance, htravel]
      rfl
  | tooDeep hadvance hlimit => exact ⟨nofun, 0, _, rfl, .inr ⟨_, _, hadvance, hlimit, rfl⟩⟩

/-- It goes on from wherever the journey without a limit has come to, unless it
was cut off before. -/
theorem Fares.after (h : t.Fares limit j links outcome)
    (htravel : t.travel n j = some (links', last)) :
    (∃ more, links = links' ++ more ∧ t.Fares limit last more outcome)
      ∨ (∃ detour ∈ links', limit ≤ detour.leg.depth)
        ∧ ∃ path, outcome = .error (faultAt Errno.tooManyLinks path) := by
  induction n generalizing j links links' with
  | zero =>
      cases htravel
      exact .inl ⟨links, rfl, h⟩
  | succ n ih =>
      rcases travel_succ htravel with
        ⟨next, hadvance, hnext⟩ | ⟨detour, next, rest, hadvance, rfl, hnext⟩
      · exact ih (h.of_onward hadvance) hnext
      · rcases h.of_followed hadvance with ⟨-, links, rfl, hlinks⟩ | ⟨hlimit, houtcome⟩
        · rcases ih hlinks hnext with ⟨more, rfl, hmore⟩ | ⟨⟨deep, hmem, hlimit⟩, hcut⟩
          · exact .inl ⟨more, rfl, hmore⟩
          · exact .inr ⟨⟨deep, List.mem_cons_of_mem _ hmem, hlimit⟩, hcut⟩
        · exact .inr ⟨⟨detour, List.mem_cons_self, hlimit⟩, _, houtcome⟩

/-- A link that is nested too deep ends it with too many links, and nothing else
does. -/
theorem Fares.tooManyLinks_iff (h : t.Fares limit j links outcome) :
    (∃ fault, outcome = .error fault ∧ fault.code? = some Errno.tooManyLinks)
      ↔ ∃ n links' last detour next, t.travel n j = some (links', last)
          ∧ t.advance last = .followed detour next ∧ limit ≤ detour.leg.depth := by
  constructor
  · rintro ⟨fault, rfl, hcode⟩
    obtain ⟨-, n, last, htravel, hended | ⟨detour, next, hadvance, hlimit, -⟩⟩ := h.travel
    · rcases code?_of_ended hended with hother | hother
      · rw [hother] at hcode
        cases hcode
      · rw [hother] at hcode
        cases hcode
    · exact ⟨n, links, last, detour, next, htravel, hadvance, hlimit⟩
  · rintro ⟨n, links', last, detour, next, htravel, hadvance, hlimit⟩
    rcases h.after htravel with ⟨more, -, hmore⟩ | ⟨-, path, rfl⟩
    · rcases hmore.of_followed hadvance with ⟨hshallow, -⟩ | ⟨-, rfl⟩
      · exact absurd hshallow (Nat.not_lt_of_le hlimit)
      · exact ⟨_, rfl, rfl⟩
    · exact ⟨_, rfl, rfl⟩

-- =============================================================== counting

/-- No leg that lies ahead is nested in more links than were followed. -/
theorem depth_le_of_travel {k : Nat} (hahead : ∀ leg ∈ j.ahead, leg.depth ≤ k)
    (htravel : t.travel n j = some (links, last)) :
    ∀ leg ∈ last.ahead, leg.depth ≤ k + links.length := by
  induction n generalizing j k links with
  | zero =>
      cases htravel
      exact hahead
  | succ n ih =>
      rcases travel_succ htravel with
        ⟨next, hadvance, hnext⟩ | ⟨detour, next, rest, hadvance, rfl, hnext⟩
      · obtain ⟨first, heq⟩ := ahead_of_onward hadvance
        rw [heq] at hahead
        exact ih (fun leg hmem => hahead leg (List.mem_cons_of_mem _ hmem)) hnext
      · obtain ⟨behind, hj, hlegs, -⟩ := ahead_of_followed hadvance
        rw [hj] at hahead
        have hdeeper : ∀ leg ∈ next.ahead, leg.depth ≤ k + 1 := by
          intro leg hmem
          rw [hlegs] at hmem
          rcases List.mem_append.mp hmem with hmem | hmem
          · obtain ⟨name, -, rfl⟩ := List.mem_map.mp hmem
            exact Nat.succ_le_succ (hahead _ List.mem_cons_self)
          · exact Nat.le_succ_of_le (hahead leg (List.mem_cons_of_mem _ hmem))
        intro leg hmem
        have hle := ih hdeeper hnext leg hmem
        rw [List.length_cons]
        omega

/-- A link is nested only in links that were followed. -/
theorem depth_le_length {d : DirId} {path : Text}
    (htravel : t.travel n (.setOut d path) = some (links, last))
    (hadvance : t.advance last = .followed detour next) : detour.leg.depth ≤ links.length := by
  have hstart : ∀ leg ∈ (Journey.setOut d path).ahead, leg.depth ≤ 0 := by
    intro leg hmem
    obtain ⟨name, -, rfl⟩ := List.mem_map.mp hmem
    exact Nat.le_refl 0
  obtain ⟨rest, hahead, -⟩ := ahead_of_followed hadvance
  have hle := depth_le_of_travel hstart htravel detour.leg (hahead ▸ List.mem_cons_self)
  rwa [Nat.zero_add] at hle

/-- The links that a leg can lead to, itself included, if targets have `width`
names at most and lookups are nested `left` deep at most. -/
def weight (width left : Nat) : Nat := ∑ i ∈ Finset.range left, width ^ i

theorem weight_succ (width left : Nat) :
    weight width (left + 1) = width * weight width left + 1 :=
  geom_sum_succ

/-- The links of a journey are bounded by the legs ahead of it, each with all
the links that it can lead to. -/
theorem Fares.length_le {width : Nat}
    (hwidth : ∀ d name target, t.entry? d name = some (.link target) →
      (names target).length ≤ width)
    (h : t.Fares limit j links outcome) :
    links.length ≤ (j.ahead.map fun leg => weight width (limit - leg.depth)).sum := by
  induction h with
  | ended => exact Nat.zero_le _
  | tooDeep => exact Nat.zero_le _
  | onward hadvance _ ih =>
      obtain ⟨leg, heq⟩ := ahead_of_onward hadvance
      rw [heq, List.map_cons, List.sum_cons]
      exact Nat.le_add_left_of_le ih
  | @followed j next detour links outcome hadvance hlimit _ ih =>
      obtain ⟨rest, hj, hnext, d, hentry⟩ := ahead_of_followed hadvance
      have hwidth := Nat.mul_le_mul_right (weight width (limit - (detour.leg.depth + 1)))
        (hwidth d _ _ hentry)
      rw [hnext, List.map_append, List.sum_append,
        sum_map_legs fun depth => weight width (limit - depth)] at ih
      rw [hj, List.map_cons, List.sum_cons, List.length_cons,
        show limit - detour.leg.depth = limit - (detour.leg.depth + 1) + 1 by omega, weight_succ]
      omega

-- ================================================================== walks

/-- How a journey ends whose legs in front have led to a spot, or failed, with
the legs that wait behind. -/
def Continues (t : Tree) (limit : Nat) (behind : List Leg) :
    Except Fault Spot → List Detour → Except Fault Spot → Prop
  | .ok found, links, outcome => t.Fares limit ⟨found, behind⟩ links outcome
  | .error fault, links, outcome => links = [] ∧ outcome = .error fault

/-- Whatever legs wait behind, a journey takes the legs in front and goes on from
the spot that they lead to, or fails among them. -/
def Fulfils (t : Tree) (limit : Nat) (spot : Spot) (front : List Leg)
    (outcome : Except Fault Spot) : Prop :=
  ∀ behind, ∃ links, ∀ more last, t.Continues limit behind outcome more last →
    t.Fares limit ⟨spot, front ++ behind⟩ (links ++ more) last

theorem Fulfils.nil : t.Fulfils limit spot [] (.ok spot) :=
  fun _ => ⟨[], fun _ _ h => h⟩

theorem Fulfils.of_onward (h : t.Fulfils limit found front' outcome)
    (hadvance : ∀ behind, t.advance ⟨spot, front ++ behind⟩ = .onward ⟨found, front' ++ behind⟩) :
    t.Fulfils limit spot front outcome := by
  intro behind
  obtain ⟨links, hlinks⟩ := h behind
  exact ⟨links, fun more last hmore => .onward (hadvance behind) (hlinks more last hmore)⟩

theorem Fulfils.of_followed (h : t.Fulfils limit found front' outcome)
    (hlimit : detour.leg.depth < limit)
    (hadvance : ∀ behind,
      t.advance ⟨spot, front ++ behind⟩ = .followed detour ⟨found, front' ++ behind⟩) :
    t.Fulfils limit spot front outcome := by
  intro behind
  obtain ⟨links, hlinks⟩ := h behind
  exact ⟨detour :: links, fun more last hmore =>
    .followed (hadvance behind) hlimit (hlinks more last hmore)⟩

theorem Fulfils.of_fares {fault : Fault}
    (h : ∀ behind, t.Fares limit ⟨spot, front ++ behind⟩ [] (.error fault)) :
    t.Fulfils limit spot front (.error fault) := by
  intro behind
  refine ⟨[], fun more last hmore => ?_⟩
  obtain ⟨rfl, rfl⟩ := hmore
  exact h behind

/-- The legs behind are taken from where those in front have led. -/
theorem Fulfils.bind {next : Spot → Except Fault Spot} (h : t.Fulfils limit spot front outcome)
    (hnext : ∀ found, t.Fulfils limit found front' (next found)) :
    t.Fulfils limit spot (front ++ front') (outcome.bind next) := by
  intro behind
  rw [List.append_assoc]
  obtain ⟨links, hlinks⟩ := h (front' ++ behind)
  cases outcome with
  | error fault => exact ⟨links, hlinks⟩
  | ok found =>
      obtain ⟨links', hlinks'⟩ := hnext found behind
      refine ⟨links ++ links', fun more last hmore => ?_⟩
      rw [List.append_assoc]
      exact hlinks _ _ (hlinks' more last hmore)

/-- The names of a walk that are nested in `depth` links, if its lookups of links
make the journey, or give up because they are nested too deep. -/
theorem walkSpotNames_fulfils {atLink : DirId → Text → Except Fault Spot} (path : Text)
    (depth : Nat)
    (hlink : ∀ d target,
      (depth < limit ∧ t.Fulfils limit (.directory (walkStart d target)) (legs (depth + 1) target)
          (atLink d target))
        ∨ (limit ≤ depth ∧ atLink d target = .error (faultAt Errno.tooManyLinks path))) :
    ∀ (ns : List Name) (spot : Spot),
      t.Fulfils limit spot (ns.map fun name => ⟨name, path, depth⟩)
        (t.walkSpotNames atLink path spot ns) := by
  intro ns
  induction ns with
  | nil =>
      intro spot
      cases spot <;> exact .nil
  | cons name ns ih =>
      intro spot
      cases spot with
      | file d last => exact .of_fares fun _ => .ended rfl
      | directory d =>
          rw [walkSpotNames, List.map_cons]
          cases t.meets d name with
          | dot hname =>
              rw [if_pos hname]
              exact (ih (.directory d)).of_onward fun _ => advance_dot hname
          | dotDot hname =>
              rw [if_neg (by rw [hname]; decide), if_pos hname]
              exact (ih _).of_onward fun _ => advance_dotDot hname
          | directory c hdot hdotDot hentry =>
              rw [if_neg hdot, if_neg hdotDot, hentry]
              exact (ih _).of_onward fun _ => advance_directory hdot hdotDot hentry
          | file hdot hdotDot hentry =>
              rw [if_neg hdot, if_neg hdotDot, hentry]
              exact (ih _).of_onward fun _ => advance_file hdot hdotDot hentry
          | missing hdot hdotDot hentry =>
              rw [if_neg hdot, if_neg hdotDot, hentry]
              exact .of_fares fun _ => .ended (advance_missing hdot hdotDot hentry)
          | link target hdot hdotDot hentry =>
              rw [if_neg hdot, if_neg hdotDot, hentry]
              rcases hlink d target with ⟨hlimit, htarget⟩ | ⟨hlimit, htarget⟩
              · have hlegs : ∀ behind : List Leg, t.advance ⟨.directory d, ⟨name, path, depth⟩
                    :: (ns.map (fun name => ⟨name, path, depth⟩) ++ behind)⟩
                    = .followed ⟨⟨name, path, depth⟩, target⟩ ⟨.directory (walkStart d target),
                      (legs (depth + 1) target ++ ns.map fun name => ⟨name, path, depth⟩)
                        ++ behind⟩ := by
                  intro behind
                  rw [List.append_assoc]
                  exact advance_link hdot hdotDot hentry
                exact (htarget.bind ih).of_followed hlimit hlegs
              · simp only [htarget]
                exact .of_fares fun _ => .tooDeep (advance_link hdot hdotDot hentry) hlimit

/-- A walk makes the journey, however deep its lookups may be nested. -/
theorem walkSpotWithin_fulfils :
    ∀ (left depth : Nat) (d : DirId) (path : Text), depth + left = limit →
      t.Fulfils limit (.directory (walkStart d path)) (legs depth path)
        (t.walkSpotWithin left d path) := by
  intro left
  induction left with
  | zero =>
      intro depth d path hdepth
      exact walkSpotNames_fulfils path depth (fun _ _ => .inr ⟨Nat.le_of_eq hdepth.symm, rfl⟩) _ _
  | succ left ih =>
      intro depth d path hdepth
      refine walkSpotNames_fulfils path depth (fun d target => .inl ⟨by omega, ?_⟩) _ _
      exact ih (depth + 1) d target (by omega)

/-- A walk ends as its journey does that follows no link nested in too many
others. -/
theorem walkSpot_fares (t : Tree) (d : DirId) (path : Text) :
    ∃ links, t.Fares maxLinkDepth (.setOut d path) links (t.walkSpot d path) := by
  have hfulfils : t.Fulfils maxLinkDepth (.directory (walkStart d path)) (legs 0 path)
      (t.walkSpot d path) := walkSpotWithin_fulfils maxLinkDepth 0 d path (Nat.zero_add _)
  obtain ⟨links, hlinks⟩ := hfulfils []
  rw [List.append_nil] at hlinks
  refine ⟨links ++ [], hlinks [] _ ?_⟩
  cases t.walkSpot d path with
  | ok found => exact .ended (by cases found <;> rfl)
  | error fault => exact ⟨rfl, rfl⟩

end Tree

end PathResolution
