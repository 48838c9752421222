/-
What is found under a list of names, and how building changes it.

Literal look-ups forget the numbers of directories and tell only what kind of
thing stands under a list of names (`literal`). A tree that has got one more
entry differs in one look-up: the names that lead to the directory, with the new
name behind them (`WellFormed.literal_add`). That takes the shape of the tree:
if two lists of names led to the directory, the entry would turn up twice.

The place that a path names is said in the same terms. The directory that the
names above the last lead to is the one that a builder looks for
(`directoryFrom_eq_ok_iff`), so a builder finds a place exactly if these names
lead to a directory and none of the names says a way (`locate_eq_ok_iff`).
-/
import PathResolution.Proofs.Tree.Growth
import PathResolution.Proofs.Tree.Spot

namespace PathResolution

-- ================================================================= kinds

/-- What can stand under a name, whichever directory it is. -/
inductive Kind where
  | directory
  | file
  | link (target : Text)
  deriving DecidableEq, Repr

def Node.kind : Node → Kind
  | .directory _ => .directory
  | .file => .file
  | .link target => .link target

/-- What is found under lists of names. -/
abbrev Lookup := List Name → Option Kind

/-- None of the names of a path says a way. -/
abbrev HasPlainNames (path : Text) : Prop := ArePlain (names path)

/-- A path has at least one name, and those above its last one lead through
directories. -/
def Lookup.HasPlace (found : Lookup) (path : Text) : Prop :=
  names path ≠ [] ∧ ∀ ns, ns <+: names path → ns ≠ names path → found ns = some .directory

namespace Tree

variable {t t' : Tree} {d c : DirId} {name : Name} {node : Node} {kind : Kind}
  {path : Text} {ns front trail : List Name}

/-- What is found under lists of names from the root, following no link. -/
def literal (t : Tree) : Lookup := fun ns => (t.node? ns).map Node.kind

theorem literal_eq_directory_iff :
    t.literal ns = some .directory ↔ ∃ d, t.node? ns = some (.directory d) := by
  unfold literal
  cases t.node? ns with
  | none => simp
  | some node => cases node <;> simp [Node.kind]

/-- Behind anything but a directory there is nothing. -/
theorem spelled_cons_eq_none (h : ∀ d, t.spelled trail ≠ some (.directory d)) (name : Name) :
    t.spelled (name :: trail) = none := by
  rw [Option.eq_none_iff_forall_ne_some]
  intro node hspelled
  obtain ⟨d, hd, -⟩ := directory_of_spelled_cons hspelled
  exact h d hd

/-- The last of the names is looked up in the directory that those above it lead
to. -/
theorem node?_concat (h : t.node? front = some (.directory d)) (name : Name) :
    t.node? (front ++ [name]) = t.entry? d name := by
  have hspelled : t.spelled front.reverse = some (.directory d) := (spelled_reverse front).trans h
  rw [← spelled_cons hspelled, spelled, List.reverse_cons, List.reverse_reverse]

theorem directory_of_node?_concat (h : t.node? (front ++ [name]) = some node) :
    ∃ d, t.node? front = some (.directory d) ∧ t.entry? d name = some node := by
  have hspelled : t.spelled (name :: front.reverse) = some node := by
    rw [spelled, List.reverse_cons, List.reverse_reverse, h]
  obtain ⟨d, hd, hentry⟩ := directory_of_spelled_cons hspelled
  rw [spelled_reverse] at hd
  exact ⟨d, hd, hentry⟩

-- ============================================================= one entry

/-- One look-up by name more is one look-up by names more, unless there is
something behind the new entry. -/
theorem WellFormed.spelled_of_new (wf : t.WellFormed)
    (htrail : t.spelled trail = some (.directory d)) (hnew : t.entry? d name = none)
    (hentry : ∀ d' name', t'.entry? d' name'
      = if d' = d ∧ name' = name then some node else t.entry? d' name')
    (hempty : ∀ c, node = .directory c → ∀ name', t'.entry? c name' = none)
    (trail' : List Name) :
    t'.spelled trail' = if trail' = name :: trail then some node else t.spelled trail' := by
  induction trail' with
  | nil => rfl
  | cons name' trail' ih =>
      by_cases hbehind : trail' = name :: trail
      · -- behind the new entry there is nothing, before and after
        rw [if_pos hbehind] at ih
        have hlonger : name' :: trail' ≠ name :: trail := by
          intro heq
          have hlength := congrArg List.length hbehind
          have hlength' := congrArg List.length heq
          simp only [List.length_cons] at hlength hlength'
          omega
        have hbefore : t.spelled trail' = none := by rw [hbehind, spelled_cons htrail, hnew]
        have hafter : t'.spelled (name' :: trail') = none := by
          rw [Option.eq_none_iff_forall_ne_some]
          intro found hfound
          obtain ⟨c, hc, hbelow⟩ := directory_of_spelled_cons hfound
          rw [ih] at hc
          injection hc with hc
          rw [hempty c hc name'] at hbelow
          cases hbelow
        have hnone : t.spelled (name' :: trail') = none :=
          spelled_cons_eq_none (fun c hc => by rw [hbefore] at hc; cases hc) name'
        rw [if_neg hlonger, hafter, hnone]
      · rw [if_neg hbehind] at ih
        by_cases hholder : ∃ d', t.spelled trail' = some (.directory d')
        · obtain ⟨d', hd'⟩ := hholder
          -- only one trail leads to the directory
          have hsame : (d' = d ∧ name' = name) ↔ name' :: trail' = name :: trail := by
            rw [List.cons_eq_cons]
            constructor
            · rintro ⟨rfl, rfl⟩
              exact ⟨rfl, wf.spelled_inj hd' htrail⟩
            · rintro ⟨rfl, rfl⟩
              rw [htrail] at hd'
              injection hd' with hd'
              injection hd' with hd'
              exact ⟨hd'.symm, rfl⟩
          rw [spelled_cons (ih.trans hd'), hentry, spelled_cons hd']
          simp only [hsame]
        · have hother : name' :: trail' ≠ name :: trail := by
            rintro ⟨⟩
            exact hholder ⟨d, htrail⟩
          rw [if_neg hother, spelled_cons_eq_none (fun c hc => hholder ⟨c, ih ▸ hc⟩),
            spelled_cons_eq_none (fun c hc => hholder ⟨c, hc⟩)]

/-- The tree with something of this kind as a new entry of a directory. -/
def add (t : Tree) (kind : Kind) (d : DirId) (name : Name) : Tree :=
  match kind with
  | .directory => (t.addDirectory d name).1
  | .file => t.addEntry d name .file
  | .link target => t.addEntry d name (.link target)

/-- Something new is found under the names of its directory with its own behind
them, and nothing else is found that was not found before. -/
theorem WellFormed.literal_add (wf : t.WellFormed) (hfront : t.node? front = some (.directory d))
    (hnew : t.entry? d name = none) (kind : Kind) (ns : List Name) :
    (t.add kind d name).literal ns
      = if ns = front ++ [name] then some kind else t.literal ns := by
  have htrail : t.spelled front.reverse = some (.directory d) :=
    (spelled_reverse front).trans hfront
  have hd : t.Has d := wf.has_of_spelled htrail
  have hnames : ns.reverse = name :: front.reverse ↔ ns = front ++ [name] := by
    rw [← List.reverse_concat, List.reverse_inj]
  have hlookUp : ∀ {made : Tree} {node : Node},
      (∀ trail, made.spelled trail
        = if trail = name :: front.reverse then some node else t.spelled trail) →
      made.literal ns = if ns = front ++ [name] then some node.kind else t.literal ns := by
    intro made node hspelled
    have hat := hspelled ns.reverse
    simp only [spelled_reverse, hnames] at hat
    rw [literal, hat, literal]
    split <;> rfl
  cases kind with
  | directory =>
      refine hlookUp (wf.spelled_of_new htrail hnew (entry?_addDirectory hd hnew) ?_)
      rintro c ⟨⟩ name'
      exact entry?_addDirectory_next name'
  | file =>
      refine hlookUp (wf.spelled_of_new htrail hnew (entry?_addEntry hd hnew) ?_)
      rintro c ⟨⟩
  | link target =>
      refine hlookUp (wf.spelled_of_new htrail hnew (entry?_addEntry hd hnew) ?_)
      rintro c ⟨⟩

-- =============================================================== places

theorem directory_of_node?_append {back : List Name}
    (h : t.node? (front ++ back) = some (.directory d)) :
    ∃ c, t.node? front = some (.directory c) := by
  rw [node?_append] at h
  cases hfront : t.node? front with
  | none =>
      rw [hfront] at h
      cases h
  | some mid =>
      rw [hfront] at h
      cases mid with
      | directory c => exact ⟨c, rfl⟩
      | file => cases back <;> cases h
      | link target => cases back <;> cases h

theorem hasPlace_iff : t.literal.HasPlace path
    ↔ ∃ front name d, names path = front ++ [name] ∧ t.node? front = some (.directory d) := by
  constructor
  · intro h
    obtain ⟨hne, habove⟩ := h
    rcases List.eq_nil_or_concat (names path) with hnil | ⟨front, name, hnames⟩
    · exact absurd hnil hne
    · rw [List.concat_eq_append] at hnames
      rw [hnames] at habove
      obtain ⟨d, hd⟩ := literal_eq_directory_iff.mp
        (habove front (List.prefix_append _ _) (by simp))
      exact ⟨front, name, d, hnames, hd⟩
  · intro h
    obtain ⟨front, name, d, hnames, hd⟩ := h
    rw [Lookup.HasPlace, hnames]
    refine ⟨by simp, fun ns hprefix hproper => ?_⟩
    obtain ⟨back, rfl⟩ := (List.prefix_concat_iff.mp hprefix).resolve_left hproper
    exact literal_eq_directory_iff.mpr (directory_of_node?_append hd)

/-- Where the literal names of a builder lead. -/
theorem directoryFrom_eq_ok_iff :
    t.directoryFrom path d ns = .ok c ↔ t.nodeFrom? (.directory d) ns = some (.directory c) := by
  induction ns generalizing d with
  | nil => simp [directoryFrom, nodeFrom?]
  | cons name ns ih =>
      rw [directoryFrom, nodeFrom?]
      cases t.entry? d name with
      | none => simp
      | some node =>
          cases node with
          | directory child => exact ih
          | file => cases ns <;> simp [nodeFrom?]
          | link target => cases ns <;> simp [nodeFrom?]

theorem contains_dots_iff :
    ((names path).contains dotDot || (names path).contains dot) = true ↔ ¬ HasPlainNames path := by
  simp only [ArePlain, Bool.or_eq_true, List.contains_iff_mem]
  constructor
  · rintro (h | h) hplain
    · exact hplain.2 h
    · exact hplain.1 h
  · intro h
    by_cases hdotDot : dotDot ∈ names path
    · exact .inl hdotDot
    · by_cases hdot : dot ∈ names path
      · exact .inr hdot
      · exact absurd ⟨hdot, hdotDot⟩ h

/-- A path with a dot among its names has no place. -/
theorem locate_of_dots (h : ¬ HasPlainNames path) :
    t.locate path = .error (faultAt Errno.invalidArgument path) := by
  unfold locate
  simp only [contains_dots_iff, if_pos h]
  split <;> rfl

/-- A path whose names lead to a directory, but for the last, has a place. -/
theorem locate_eq_ok_iff :
    t.locate path = .ok (d, name) ↔ HasPlainNames path
      ∧ ∃ front, names path = front ++ [name] ∧ t.node? front = some (.directory d) := by
  by_cases hplain : HasPlainNames path
  · unfold locate
    simp only [contains_dots_iff, hplain, not_true_eq_false, if_false, true_and]
    rcases List.eq_nil_or_concat (names path) with hnil | ⟨front, last, hnames⟩
    · simp [hnil]
    · rw [List.concat_eq_append] at hnames
      simp only [hnames, List.getLast?_concat, List.dropLast_concat]
      constructor
      · intro h
        cases hfrom : t.directoryFrom path root front with
        | error fault =>
            rw [hfrom] at h
            cases h
        | ok found =>
            rw [hfrom] at h
            injection h with h
            obtain ⟨rfl, rfl⟩ := Prod.mk.inj h
            exact ⟨front, rfl, directoryFrom_eq_ok_iff.mp hfrom⟩
      · intro h
        obtain ⟨front', hnames', hfront'⟩ := h
        obtain ⟨rfl, hlast⟩ := List.append_inj' hnames' rfl
        obtain rfl : last = name := List.singleton_inj.mp hlast
        rw [directoryFrom_eq_ok_iff.mpr hfront']
        rfl
  · rw [locate_of_dots hplain]
    exact ⟨nofun, fun h => absurd h.1 hplain⟩

end Tree

end PathResolution
