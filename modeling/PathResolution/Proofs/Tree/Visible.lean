/-
What can be found by walking.

A walk takes `.` and `..` as ways, whatever a directory lists under these names.
So from what plain names lead to from the root (`Visible`) it comes only to what
plain names lead to: to the root, to a parent, to an entry with a plain name, or
to where a link leads, which is the same again (`WellFormed.visible_of_walkSpot`).
What has a dot among its names is out of reach, and what has none is found by its
own names (`WellFormed.walkSpot_pathOf`).
-/
import PathResolution.Proofs.Tree.Growth
import PathResolution.Proofs.Tree.Spot

namespace PathResolution.Tree

variable {t t' : Tree} {d c : DirId} {name : Name} {node : Node} {spot : Spot} {path : Text}
  {ns trail : List Name}

/-- What plain names lead to from the root. -/
def Visible (t : Tree) (spot : Spot) : Prop :=
  ∃ trail, t.Rests trail spot ∧ ∀ n ∈ trail, IsPlainName n

-- =============================================================== beside

theorem visible_root : t.Visible (.directory root) :=
  ⟨[], .directory spelled_nil, by simp⟩

theorem WellFormed.has_of_visible (wf : t.WellFormed) (h : t.Visible (.directory d)) :
    t.Has d := by
  obtain ⟨trail, ⟨hd⟩, -⟩ := h
  exact wf.has_of_spelled hd

theorem WellFormed.visible_parent (wf : t.WellFormed) (h : t.Visible (.directory d)) :
    t.Visible (.directory (t.parent d)) := by
  obtain ⟨trail, ⟨hd⟩, hplain⟩ := h
  exact ⟨trail.tail, .directory (wf.spelled_tail hd),
    fun n hn => hplain n (List.mem_of_mem_tail hn)⟩

theorem WellFormed.isPlainName_of_entry (wf : t.WellFormed) (hdot : name ≠ dot)
    (hdotDot : name ≠ dotDot) (hentry : t.entry? d name = some node) : IsPlainName name :=
  ⟨wf.isName_of_entry d name node hentry, hdot, hdotDot⟩

theorem Visible.directory (h : t.Visible (.directory d)) (hname : IsPlainName name)
    (hentry : t.entry? d name = some (.directory c)) : t.Visible (.directory c) := by
  obtain ⟨trail, ⟨hd⟩, hplain⟩ := h
  exact ⟨name :: trail, .directory ((spelled_cons hd name).trans hentry),
    List.forall_mem_cons.mpr ⟨hname, hplain⟩⟩

theorem Visible.file (h : t.Visible (.directory d)) (hname : IsPlainName name)
    (hentry : t.entry? d name = some .file) : t.Visible (.file d name) := by
  obtain ⟨trail, ⟨hd⟩, hplain⟩ := h
  exact ⟨name :: trail, .file hd hentry, List.forall_mem_cons.mpr ⟨hname, hplain⟩⟩

-- =============================================================== walking

/-- Names lead from what can be found to what can be found, if links do. -/
theorem WellFormed.visible_of_walkSpotNames (wf : t.WellFormed)
    {atLink : DirId → Text → Except Fault Spot} {start : Spot}
    (hlink : ∀ holder target found, t.Visible (.directory holder) →
      atLink holder target = .ok found → t.Visible found)
    (hstart : t.Visible start) (h : t.walkSpotNames atLink path start ns = .ok spot) :
    t.Visible spot := by
  fun_induction walkSpotNames t atLink path start ns with
  | case1 start =>
      injection h with h
      exact h ▸ hstart
  | case2 d rest ih => exact ih hstart h
  | case3 d rest hdot ih => exact ih (wf.visible_parent hstart) h
  | case4 d name rest hdot hdotDot hentry => cases h
  | case5 d name rest hdot hdotDot c hentry ih =>
      exact ih (hstart.directory (wf.isPlainName_of_entry hdot hdotDot hentry) hentry) h
  | case6 d name rest hdot hdotDot hentry ih =>
      exact ih (hstart.file (wf.isPlainName_of_entry hdot hdotDot hentry) hentry) h
  | case7 d name rest hdot hdotDot target hentry ih =>
      cases hfound : atLink d target with
      | error fault =>
          rw [hfound] at h
          cases h
      | ok found =>
          rw [hfound] at h
          exact ih found (hlink d target found hstart hfound) h
  | case8 holder name rest => cases h

theorem WellFormed.visible_of_walkSpot (wf : t.WellFormed) (hd : t.Visible (.directory d))
    (h : t.walkSpot d path = .ok spot) : t.Visible spot := by
  have hstart : ∀ {d path}, t.Visible (.directory d) →
      t.Visible (.directory (walkStart d path)) := by
    intro d path hd
    unfold walkStart
    split
    · exact visible_root
    · exact hd
  unfold walkSpot at h
  generalize maxLinkDepth = depth at h
  induction depth generalizing d path spot with
  | zero =>
      refine wf.visible_of_walkSpotNames ?_ (hstart hd) h
      rintro holder target found - ⟨⟩
  | succ depth ih => exact wf.visible_of_walkSpotNames (fun _ _ _ => ih) (hstart hd) h

theorem WellFormed.visible_of_walk (wf : t.WellFormed) (hd : t.Visible (.directory d))
    (h : t.walk d path = .ok (.directory c)) : t.Visible (.directory c) := by
  rw [walk_eq_map_walkSpot] at h
  cases hspot : t.walkSpot d path with
  | error fault =>
      rw [hspot] at h
      cases h
  | ok spot =>
      rw [hspot] at h
      injection h with h
      have hvisible := wf.visible_of_walkSpot hd hspot
      cases spot with
      | directory found =>
          injection h with h
          exact h ▸ hvisible
      | file holder name => cases h

/-- Plain names are taken literally, and no link is met on the way to a spot. -/
theorem walkSpotNames_of_spotFrom? {atLink : DirId → Text → Except Fault Spot} {start : Spot}
    (hplain : ArePlain ns) (h : t.spotFrom? start ns = some spot) :
    t.walkSpotNames atLink path start ns = .ok spot := by
  induction ns generalizing start with
  | nil =>
      injection h with h
      rw [walkSpotNames, h]
  | cons name ns ih =>
      obtain ⟨hdot, hdotDot⟩ := hplain
      rw [List.mem_cons, not_or] at hdot hdotDot
      cases start with
      | file holder name' => cases h
      | directory d =>
          rw [walkSpotNames, if_neg (Ne.symm hdot.1), if_neg (Ne.symm hdotDot.1)]
          rw [spotFrom?] at h
          split at h
          · next c hentry =>
            rw [hentry]
            exact ih ⟨hdot.2, hdotDot.2⟩ h
          · next hentry =>
            rw [hentry]
            exact ih ⟨hdot.2, hdotDot.2⟩ h
          · cases h
          · cases h

-- ========================================================= out of reach

/-- The names on the way to a spot are names. -/
theorem WellFormed.isName_of_spelled (wf : t.WellFormed) (h : t.spelled trail = some node) :
    ∀ n ∈ trail, IsName n := by
  induction trail generalizing node with
  | nil => simp
  | cons name trail ih =>
      obtain ⟨d, hd, hentry⟩ := directory_of_spelled_cons h
      exact List.forall_mem_cons.mpr ⟨wf.isName_of_entry d name node hentry, ih hd⟩

theorem WellFormed.isName_of_spot? (wf : t.WellFormed) (h : t.spot? ns = some spot) :
    ∀ n ∈ ns, IsName n := by
  have hspelled : t.spelled ns.reverse = some spot.node :=
    (spelled_reverse ns).trans (node?_of_spot? h)
  intro n hn
  exact wf.isName_of_spelled hspelled n (List.mem_reverse.mpr hn)

/-- A spot can be found exactly if the one list of names that leads to it is
plain. -/
theorem WellFormed.visible_iff (wf : t.WellFormed) (h : t.spot? ns = some spot) :
    t.Visible spot ↔ ArePlain ns := by
  constructor
  · intro hvisible
    obtain ⟨trail, hrests, hplain⟩ := hvisible
    have htrail : t.spot? trail.reverse = some spot := by
      rw [spot?_eq_some_iff, List.reverse_reverse]
      exact hrests
    rw [wf.spot?_inj h htrail]
    exact arePlain_of_isPlainName fun n hn => hplain n (List.mem_reverse.mp hn)
  · intro hplain
    exact ⟨ns.reverse, spot?_eq_some_iff.mp h, fun n hn =>
      hplain.isPlainName (wf.isName_of_spot? h) (List.mem_reverse.mp hn)⟩

/-- What can be found is found by its own names. -/
theorem WellFormed.walkSpot_pathOf (wf : t.WellFormed) (h : t.spot? ns = some spot)
    (hplain : ArePlain ns) : t.walkSpot root (pathOf ns) = .ok spot := by
  have hstart : walkStart root (pathOf ns) = root := ite_self root
  have hnames : names (pathOf ns) = ns := names_pathOf (wf.isName_of_spot? h)
  unfold walkSpot
  cases maxLinkDepth with
  | zero =>
      rw [walkSpotWithin, hstart, hnames]
      exact walkSpotNames_of_spotFrom? hplain h
  | succ depth =>
      rw [walkSpotWithin, hstart, hnames]
      exact walkSpotNames_of_spotFrom? hplain h

-- =============================================================== growing

/-- What can be found, can be found while the tree grows. -/
theorem Grows.visible (h : t.Grows t') (hd : t.Visible (.directory d)) :
    t'.Visible (.directory d) := by
  obtain ⟨trail, ⟨hspelled⟩, hplain⟩ := hd
  exact ⟨trail, .directory (h.spelled_eq hspelled), hplain⟩

end PathResolution.Tree
