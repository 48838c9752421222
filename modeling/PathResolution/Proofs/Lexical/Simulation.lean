/-
Working on the text of a path comes to what its names come to.

Where a resolution gets on, one who works on the text keeps up with it: the text
is written from names that lead to where the resolution is, and that leave its
trail (`Place`). Both climb out of directories only, so that `..` means the same
to both.

What is kept of links is true (`Notes.known`): the path that a link is replaced
by is written for what its target comes to, and the text of the link determines
that. A link that is underway is never met again (`Notes.dearer`): its target
costs at least as much as what is being taken, which the target of a link that
is met does not. For the same reason all links underway are different, so no
more of them are underway than there are on the disk (`Notes.length_le`). The
induction is on how names come to something, with the target of a link before
what is behind the link (`takeFields_arrives`).
-/
import PathResolution.Proofs.Disk.Passage
import PathResolution.Proofs.Lexical.Looking

namespace PathResolution

open Disk Lexical

-- ================================================================= links

namespace Tree

def isLink (entry : Name × Node) : Bool :=
  match entry.2 with
  | .link _ => true
  | _ => false

/-- The links in a directory, by its number and their names. -/
def linksIn (directory : Directory) (d : DirId) : List (DirId × Name) :=
  (directory.entries.filter isLink).map fun entry => (d, entry.1)

/-- The links of a tree, each by the directory that it is in and its name. -/
def links (t : Tree) : List (DirId × Name) :=
  t.directories.zipIdx.flatMap fun (directory, d) => linksIn directory d

theorem length_links (t : Tree) : t.links.length = linkCount t := by
  have hall : ∀ (directories : List Directory) (k : Nat),
      ((directories.zipIdx k).flatMap fun (directory, d) => linksIn directory d).length
        = (directories.flatMap (·.entries)).countP isLink := by
    intro directories
    induction directories with
    | nil => exact fun _ => rfl
    | cons directory directories ih =>
        intro k
        have hone : (linksIn directory k).length = directory.entries.countP isLink := by
          rw [linksIn, List.length_map, List.countP_eq_length_filter]
        rw [List.zipIdx_cons, List.flatMap_cons, List.flatMap_cons, List.length_append,
          List.countP_append]
        exact congrArg₂ (· + ·) hone (ih (k + 1))
  exact hall t.directories 0

theorem mem_links {t : Tree} {d : DirId} {name : Name} {target : Text}
    (h : t.entry? d name = some (.link target)) : (d, name) ∈ t.links := by
  obtain ⟨directory, hget, hlookup⟩ := Option.bind_eq_some_iff.mp h
  obtain ⟨front, back, hentries, -⟩ := List.lookup_eq_some_iff.mp hlookup
  have hmem : (name, Node.link target) ∈ directory.entries.filter isLink :=
    List.mem_filter.mpr ⟨hentries ▸ List.mem_append_right front List.mem_cons_self, rfl⟩
  refine List.mem_flatMap.mpr ⟨(directory, d), List.mem_zipIdx_iff_getElem?.mpr hget, ?_⟩
  exact List.mem_map.mpr ⟨_, hmem, rfl⟩

end Tree

-- ================================================================ places

/-- Names that lead where a resolution is, and that leave its trail; `front` is
the trail of the working directory. -/
structure Place (t : Tree) (w : DirId) (front : List Name) (rooted : Bool)
    (above trail : List Name) (o : Option DirId) : Prop where
  accepted : ∀ n ∈ above, IsName n ∧ n ≠ dot
  trail_eq : trail = retrace (if rooted then [] else front) above
  leads : ∀ d, o = some d → Leads t (startOf rooted w) above d

variable {t : Tree} {w d : DirId} {front above trail trail' : List Name} {rooted : Bool}
  {name : Name} {o : Option DirId}

theorem Place.cons (h : Place t w front rooted above trail (some d)) (hname : IsPlainName name)
    (hleads : ∀ c, o = some c → Finds t d name (some (.directory c))) :
    Place t w front rooted (name :: above) (name :: trail) o := by
  refine ⟨List.forall_mem_cons.mpr ⟨⟨hname.toIsName, hname.ne_dot⟩, h.accepted⟩, ?_, ?_⟩
  · rw [retrace, if_neg hname.ne_dotDot, h.trail_eq]
  · exact fun c hc => .enter (h.leads d rfl) (hleads c hc)

/-- One level up is the parent. -/
theorem Place.climbed (hs : Sound t) (h : Place t w front rooted above trail (some d)) :
    Place t w front rooted (climbed rooted above) trail.tail (some (t.parent d)) := by
  refine ⟨?_, ?_, ?_⟩
  · have hdotDot : IsName dotDot ∧ dotDot ≠ dot := ⟨⟨by decide, by decide⟩, by decide⟩
    cases above with
    | nil =>
        cases rooted with
        | true => exact h.accepted
        | false => exact List.forall_mem_cons.mpr ⟨hdotDot, h.accepted⟩
    | cons last above =>
        rw [Lexical.climbed]
        split
        · exact List.forall_mem_cons.mpr ⟨hdotDot, h.accepted⟩
        · exact (List.forall_mem_cons.mp h.accepted).2
  · rw [retrace_climbed, h.trail_eq]
    intro hrooted
    rw [if_pos hrooted]
  · intro c hc
    injection hc with hc
    rw [← hc]
    have hleads := h.leads d rfl
    cases above with
    | nil =>
        cases rooted with
        | true =>
            cases hleads
            rw [startOf, if_pos rfl, hs.parent_root]
            exact .here
        | false => exact .climb hleads
    | cons last above =>
        rw [Lexical.climbed]
        split
        · exact .climb hleads
        · next hlast => exact hleads.tail hs hlast

/-- The target of a link starts at the root, or where the link is. -/
theorem Place.target (h : Place t w front rooted above trail (some d)) (target : Text) :
    ∃ rooted' above', Place t w front rooted' above' (linkTrail target trail)
        (some (Tree.walkStart d target))
      ∧ written rooted' above'
        = if isAbsolute target then [separator] else written rooted above := by
  unfold linkTrail Tree.walkStart
  split
  · refine ⟨true, [], ⟨fun _ hn => absurd hn List.not_mem_nil, rfl, ?_⟩, rfl⟩
    intro c hc
    injection hc with hc
    exact hc ▸ .here
  · exact ⟨rooted, above, h, rfl⟩

-- ================================================================== notes

/-- A path that a link is replaced by is written for what its target comes to. -/
def Replaced (t : Tree) (w : DirId) (front : List Name) (path known : Text) : Prop :=
  ∃ rooted above trail name d target, path = written rooted (name :: above)
    ∧ Place t w front rooted above trail (some d) ∧ Finds t d name (some (.link target))
    ∧ ∃ rooted' above' trail' o m, known = written rooted' above'
      ∧ Place t w front rooted' above' trail' o
      ∧ Comes t (names target) (linkTrail target trail) (some (Tree.walkStart d target)) trail' o m

/-- A path is the one of a link that is underway. -/
def Underway (t : Tree) (w : DirId) (front : List Name) (busy : List (DirId × Name))
    (path : Text) : Prop :=
  ∃ rooted above trail name d, path = written rooted (name :: above) ∧ IsName name
    ∧ Place t w front rooted above trail (some d) ∧ (d, kept name) ∈ busy

/-- What is noted of links while names are taken at a cost; `busy` are the links
that are underway. -/
structure Notes (t : Tree) (w : DirId) (front : List Name) (seen : Seen)
    (busy : List (DirId × Name)) (cost : Nat) : Prop where
  known : ∀ path known, seen.lookup (seenAs path) = some (some known) →
    Replaced t w front path known
  underway : ∀ path, seen.lookup (seenAs path) = some none → Underway t w front busy path
  nodup : busy.Nodup
  /-- The target of a link that is underway costs at least as much. -/
  dearer : ∀ d name, (d, name) ∈ busy → ∃ target trail trail' o m,
    t.entry? d name = some (.link target) ∧ cost ≤ m
      ∧ Comes t (names target) trail (some (Tree.walkStart d target)) trail' o m

variable {seen : Seen} {busy : List (DirId × Name)} {cost m : Nat} {target path : Text}

theorem Notes.cheaper (h : Notes t w front seen busy cost) {cost' : Nat} (hle : cost' ≤ cost) :
    Notes t w front seen busy cost' := by
  refine ⟨h.known, h.underway, h.nodup, fun d name hmem => ?_⟩
  obtain ⟨target, trail, trail', o, m, hentry, hcost, hcomes⟩ := h.dearer d name hmem
  exact ⟨target, trail, trail', o, m, hentry, Nat.le_trans hle hcost, hcomes⟩

/-- There are not more links underway than there are on the disk. -/
theorem Notes.length_le (h : Notes t w front seen busy cost) : busy.length ≤ linkCount t := by
  rw [← Tree.length_links]
  refine (h.nodup.subperm fun link hmem => ?_).length_le
  obtain ⟨target, _, _, _, _, hentry, _⟩ := h.dearer link.1 link.2 hmem
  exact Tree.mem_links hentry

/-- A link whose target costs less is not underway. -/
theorem Notes.not_busy (h : Notes t w front seen busy cost)
    (hname : Finds t d name (some (.link target)))
    (hcomes : Comes t (names target) trail (some (Tree.walkStart d target)) trail' o m)
    (hlt : m < cost) : (d, kept name) ∉ busy := by
  intro hmem
  obtain ⟨target', _, _, _, m', hentry, hcost, hcomes'⟩ := h.dearer d (kept name) hmem
  rw [hname.entry?_eq] at hentry
  injection hentry with hentry
  injection hentry with hentry
  rw [← hentry] at hcomes'
  have hsame := (hcomes.unique hcomes').2.1
  omega

theorem lookup_seenAs (here path : Text) (value : Option Text) (seen : Seen) :
    List.lookup (seenAs path) ((seenAs here, value) :: seen)
      = if path = here then some value else seen.lookup (seenAs path) := by
  rw [List.lookup_cons]
  by_cases heq : path = here
  · rw [heq, if_pos rfl, beq_self_eq_true]
  · have hne : (seenAs path == seenAs here) = false := by
      rw [beq_eq_false_iff_ne]
      exact fun h => heq (Prod.mk.inj h).2
    rw [hne, if_neg heq]

/-- A link goes underway while its target is taken. -/
theorem Notes.enter (h : Notes t w front seen busy cost)
    (hplace : Place t w front rooted above trail (some d))
    (hname : Finds t d name (some (.link target)))
    (hcomes : Comes t (names target) (linkTrail target trail) (some (Tree.walkStart d target))
      trail' o m) (hlt : m < cost) :
    Notes t w front ((seenAs (written rooted (name :: above)), none) :: seen)
      ((d, kept name) :: busy) m := by
  refine ⟨fun path known hlookup => ?_, fun path hlookup => ?_,
    List.nodup_cons.mpr ⟨h.not_busy hname hcomes hlt, h.nodup⟩, fun d' name' hmem => ?_⟩
  · rw [lookup_seenAs] at hlookup
    split at hlookup
    · cases hlookup
    · exact h.known path known hlookup
  · rw [lookup_seenAs] at hlookup
    split at hlookup
    · next heq =>
      exact ⟨rooted, above, trail, name, d, heq, hname.plain.toIsName, hplace, List.mem_cons_self⟩
    · obtain ⟨rooted', above', trail', name', d', heq, hname', hplace', hmem⟩ :=
        h.underway path hlookup
      exact ⟨rooted', above', trail', name', d', heq, hname', hplace', List.mem_cons_of_mem _ hmem⟩
  · rcases List.mem_cons.mp hmem with heq | hmem
    · obtain ⟨rfl, rfl⟩ := Prod.mk.inj heq
      exact ⟨target, _, _, _, m, hname.entry?_eq, Nat.le_refl m, hcomes⟩
    · exact (h.cheaper (Nat.le_of_lt hlt)).dearer d' name' hmem

/-- A link that is replaced is not underway any more. -/
theorem underway_of_left {here : Text} {seen₁ : Seen} (known : Text)
    (h : ∀ path, seen₁.lookup (seenAs path) = some none →
      List.lookup (seenAs path) ((seenAs here, none) :: seen) = some none) (path : Text) :
    List.lookup (seenAs path) ((seenAs here, some known) :: seen₁) = some none →
      seen.lookup (seenAs path) = some none := by
  intro hlookup
  rw [lookup_seenAs] at hlookup
  split at hlookup
  · cases hlookup
  · next hne =>
    have hbefore := h path hlookup
    rwa [lookup_seenAs, if_neg hne] at hbefore

/-- What the target of a link came to is known from then on. -/
theorem Notes.leave (h : Notes t w front seen busy cost) {here known : Text} {seen₁ : Seen}
    (hknown : ∀ path known, seen₁.lookup (seenAs path) = some (some known) →
      Replaced t w front path known)
    (hreplaced : Replaced t w front here known)
    (hleft : ∀ path, List.lookup (seenAs path) ((seenAs here, some known) :: seen₁) = some none →
      seen.lookup (seenAs path) = some none) :
    Notes t w front ((seenAs here, some known) :: seen₁) busy cost := by
  refine ⟨fun path known' hlookup => ?_, fun path hlookup => h.underway path (hleft path hlookup),
    h.nodup, h.dearer⟩
  rw [lookup_seenAs] at hlookup
  split at hlookup
  · next heq =>
    injection hlookup with hlookup
    injection hlookup with hlookup
    exact heq ▸ hlookup ▸ hreplaced
  · exact hknown path known' hlookup

/-- Two places with one text are one place, and their names stand for the same. -/
theorem Place.eq_of_written {rooted' : Bool} {above' trail' : List Name} {d' : DirId} {name' : Name}
    (h : Place t w front rooted above trail (some d)) (hname : IsName name)
    (h' : Place t w front rooted' above' trail' (some d')) (hname' : IsName name')
    (heq : written rooted (name :: above) = written rooted' (name' :: above')) :
    name = name' ∧ trail = trail' ∧ d = d' ∧ above = above' ∧ rooted = rooted' := by
  obtain ⟨rfl, hcons⟩ := written_inj
    (List.forall_mem_cons.mpr ⟨hname, fun n hn => (h.accepted n hn).1⟩)
    (List.forall_mem_cons.mpr ⟨hname', fun n hn => (h'.accepted n hn).1⟩) heq
  obtain ⟨rfl, rfl⟩ := List.cons_eq_cons.mp hcons
  exact ⟨rfl, h.trail_eq.trans h'.trail_eq.symm, (h.leads d rfl).unique (h'.leads d' rfl), rfl, rfl⟩

/-- What is known of a link is what its target comes to. -/
theorem Replaced.place {known : Text}
    (h : Replaced t w front (written rooted (name :: above)) known)
    (hplace : Place t w front rooted above trail (some d))
    (hname : Finds t d name (some (.link target)))
    (hcomes : Comes t (names target) (linkTrail target trail) (some (Tree.walkStart d target))
      trail' o m) :
    ∃ rooted' above', known = written rooted' above' ∧ Place t w front rooted' above' trail' o := by
  obtain ⟨rooted₁, above₁, trail₁, name₁, d₁, target₁, hpath, hplace₁, hname₁, rooted', above',
    trail₂, o₂, m₂, hknown, hplace', hcomes₁⟩ := h
  obtain ⟨rfl, rfl, rfl, -, -⟩ :=
    hplace.eq_of_written hname.plain.toIsName hplace₁ hname₁.plain.toIsName hpath
  cases hname.unique hname₁
  obtain ⟨rfl, -, htrail⟩ := hcomes.unique hcomes₁
  exact ⟨rooted', above', hknown, htrail rfl ▸ hplace'⟩

theorem Underway.mem_busy (h : Underway t w front busy (written rooted (name :: above)))
    (hplace : Place t w front rooted above trail (some d)) (hname : IsName name) :
    (d, kept name) ∈ busy := by
  obtain ⟨rooted', above', trail', name', d', hpath, hname', hplace', hmem⟩ := h
  obtain ⟨rfl, -, rfl, -, -⟩ := hplace.eq_of_written hname hplace' hname' hpath
  exact hmem

-- ================================================================= fields

section

variable {look : Text → Sight} {circle : Text → Fault} {strict : Bool}
  {atLink : Seen → Text → Text → Except Fault Found} {fs : List Text}

/-- Empty fields say nothing. -/
theorem takeFields_append {es : List Text} (h : ∀ e ∈ es, e = []) :
    takeFields look circle strict atLink seen path (es ++ fs)
      = takeFields look circle strict atLink seen path fs := by
  induction es with
  | nil => rfl
  | cons e es ih =>
      obtain ⟨rfl, hes⟩ := List.forall_mem_cons.mp h
      rw [List.cons_append, takeFields]
      exact ih hes

theorem not_skipped (hname : IsPlainName name) :
    (name.isEmpty || name == dot) = false ∧ (name == dotDot) = false :=
  ⟨by simpa using ⟨hname.ne_nil, hname.ne_dot⟩, by simpa using hname.ne_dotDot⟩

/-- What is no link is taken as it is, whether or not it exists. -/
theorem takeFields_of_no_link (hname : IsPlainName name)
    (hlook : look (joinPath path name) = .plain
      ∨ ∃ fault, look (joinPath path name) = .missing fault) :
    takeFields look circle false atLink seen path (name :: fs)
      = takeFields look circle false atLink seen (joinPath path name) fs := by
  obtain ⟨hempty, hdotDot⟩ := not_skipped hname
  rw [takeFields, hempty, hdotDot]
  rcases hlook with hlook | ⟨fault, hlook⟩ <;> simp only [hlook] <;> rfl

theorem takeFields_of_known (hname : IsPlainName name) {known : Text}
    (hlook : look (joinPath path name) = .link target)
    (hseen : seen.lookup (seenAs (joinPath path name)) = some (some known)) :
    takeFields look circle strict atLink seen path (name :: fs)
      = takeFields look circle strict atLink seen known fs := by
  obtain ⟨hempty, hdotDot⟩ := not_skipped hname
  rw [takeFields, hempty, hdotDot]
  simp only [hlook, hseen]
  rfl

/-- A link that is seen for the first time is replaced by what is found for its
target. -/
theorem takeFields_of_found (hname : IsPlainName name) {seen₁ : Seen} {path₁ : Text}
    (hlook : look (joinPath path name) = .link target)
    (hseen : seen.lookup (seenAs (joinPath path name)) = none)
    (hfound : atLink ((seenAs (joinPath path name), none) :: seen) path target
      = .ok ⟨seen₁, path₁, true⟩) :
    takeFields look circle strict atLink seen path (name :: fs)
      = takeFields look circle strict atLink
          ((seenAs (joinPath path name), some path₁) :: seen₁) path₁ fs := by
  obtain ⟨hempty, hdotDot⟩ := not_skipped hname
  rw [takeFields, hempty, hdotDot]
  simp only [hlook, hseen, hfound]
  rfl

end

-- ============================================================ simulation

section

variable {s : Disk} {bounds : Bounds} {nul : Refusal} {ns trail₁ : List Name} {o₁ o' : Option DirId}
  {n : Nat}

/-- Taking fields arrives where names come to, with notes that are as good as
before: what is known is true, and no other link is underway. -/
def Arrives (s : Disk) (front : List Name) (seen : Seen) (taken : Except Fault Found)
    (trail : List Name) (o : Option DirId) : Prop :=
  ∃ seen' rooted above, taken = .ok ⟨seen', written rooted above, true⟩
    ∧ Place s.tree s.workingDirectory front rooted above trail o
    ∧ (∀ path known, seen'.lookup (seenAs path) = some (some known) →
        Replaced s.tree s.workingDirectory front path known)
    ∧ ∀ path, seen'.lookup (seenAs path) = some none → seen.lookup (seenAs path) = some none

/-- A name that is no link. -/
theorem takeFields_of_goes (hs : Sound s.tree) (hbounds : bounds.pathSize = none)
    (h : Goes s.tree name trail d trail₁ o₁)
    (hplace : Place s.tree s.workingDirectory front rooted above trail (some d)) :
    ∃ above₁, Place s.tree s.workingDirectory front rooted above₁ trail₁ o₁
      ∧ ∀ (atLink : Seen → Text → Text → Except Fault Found) (seen : Seen) (fs : List Text),
        takeFields (s.look bounds nul) s.circleFault false atLink seen (written rooted above)
            (name :: fs)
          = takeFields (s.look bounds nul) s.circleFault false atLink seen
              (written rooted above₁) fs := by
  have hnames : ∀ n ∈ above, IsName n := fun n hn => (hplace.accepted n hn).1
  cases h with
  | stay => exact ⟨above, hplace, fun _ _ _ => rfl⟩
  | climb =>
      refine ⟨climbed rooted above, hplace.climbed hs, fun _ _ _ => ?_⟩
      rw [← up_written hnames]
      rfl
  | @enter _ _ _ c hfinds =>
      refine ⟨name :: above, hplace.cons hfinds.plain fun c' hc' => ?_, fun atLink seen fs => ?_⟩
      · injection hc' with hc'
        exact hc' ▸ hfinds
      · have hlook : s.look bounds nul (written rooted (name :: above)) = _ :=
          look_written hbounds (hplace.leads d rfl) hfinds
        rw [← joinPath_written hfinds.plain.toIsName hnames] at hlook ⊢
        exact takeFields_of_no_link hfinds.plain (.inl hlook)
  | stop hfinds hfound =>
      refine ⟨name :: above, hplace.cons hfinds.plain nofun, fun atLink seen fs => ?_⟩
      have hlook : s.look bounds nul (written rooted (name :: above)) = _ :=
        look_written hbounds (hplace.leads d rfl) hfinds
      rw [← joinPath_written hfinds.plain.toIsName hnames] at hlook ⊢
      rcases hfound with rfl | rfl
      · exact takeFields_of_no_link hfinds.plain (.inr ⟨_, hlook⟩)
      · exact takeFields_of_no_link hfinds.plain (.inl hlook)

/-- The fields of a target arrive where its names come to, if fields do that are
worked on inside one more path. -/
theorem takePath_arrives {depth : Nat}
    (hplace : Place s.tree s.workingDirectory front rooted above trail (some d))
    (hfields : ∀ rooted above fs, fs.filter (fun field => !field.isEmpty) = names target →
      Place s.tree s.workingDirectory front rooted above (linkTrail target trail)
        (some (Tree.walkStart d target)) →
      Arrives s front seen (takeFields (s.look bounds nul) s.circleFault false
        (takePath (s.look bounds nul) s.circleFault false depth) seen (written rooted above) fs)
        trail' o') :
    Arrives s front seen (takePath (s.look bounds nul) s.circleFault false (depth + 1) seen
      (written rooted above) target) trail' o' := by
  obtain ⟨rooted', above', hplace', hstart⟩ := hplace.target target
  rw [takePath]
  cases habsolute : isAbsolute target with
  | false =>
      rw [habsolute, if_neg Bool.false_ne_true] at hstart
      rw [if_neg Bool.false_ne_true, ← hstart]
      exact hfields rooted' above' (fields target) rfl hplace'
  | true =>
      rw [habsolute, if_pos rfl] at hstart
      rw [if_pos rfl, ← hstart]
      refine hfields rooted' above' (fields target.tail) ?_ hplace'
      obtain ⟨rest, rfl⟩ : ∃ rest, target = separator :: rest := by
        cases target with
        | nil => cases habsolute
        | cons c rest =>
            have hc : c = separator := by simpa [isAbsolute] using habsolute
            exact ⟨rest, by rw [hc]⟩
      exact (names_separator_cons rest).symm

/-- Fields that say these names arrive where the names come to at this cost, as
long as the depth leaves room for the links that are not underway. -/
def TakesFields (s : Disk) (bounds : Bounds) (nul : Refusal) (front ns trail : List Name)
    (o : Option DirId) (trail' : List Name) (o' : Option DirId) (n : Nat) : Prop :=
  ∀ (depth : Nat) (seen : Seen) (busy : List (DirId × Name)) (rooted : Bool) (above : List Name)
    (fs : List Text), fs.filter (fun field => !field.isEmpty) = ns →
    Place s.tree s.workingDirectory front rooted above trail o →
    Notes s.tree s.workingDirectory front seen busy n →
    linkCount s.tree ≤ depth + busy.length →
    Arrives s front seen (takeFields (s.look bounds nul) s.circleFault false
      (takePath (s.look bounds nul) s.circleFault false depth) seen (written rooted above) fs)
      trail' o'

/-- A name that is a link: if it was seen before, it is replaced by what is known
of it, and else by what its target arrives at. -/
theorem takeFields_of_follow (hbounds : bounds.pathSize = none) {depth : Nat}
    (hname : Finds s.tree d name (some (.link target)))
    (hcomes : Comes s.tree (names target) (linkTrail target trail)
      (some (Tree.walkStart d target)) trail₁ o₁ m)
    (htarget : TakesFields s bounds nul front (names target) (linkTrail target trail)
      (some (Tree.walkStart d target)) trail₁ o₁ m)
    (hplace : Place s.tree s.workingDirectory front rooted above trail (some d))
    (hnotes : Notes s.tree s.workingDirectory front seen busy cost) (hlt : m < cost)
    (hdepth : linkCount s.tree ≤ depth + busy.length) :
    ∃ seen₁ rooted₁ above₁, Place s.tree s.workingDirectory front rooted₁ above₁ trail₁ o₁
      ∧ Notes s.tree s.workingDirectory front seen₁ busy cost
      ∧ (∀ path, seen₁.lookup (seenAs path) = some none → seen.lookup (seenAs path) = some none)
      ∧ ∀ fs : List Text,
        takeFields (s.look bounds nul) s.circleFault false
            (takePath (s.look bounds nul) s.circleFault false depth) seen (written rooted above)
            (name :: fs)
          = takeFields (s.look bounds nul) s.circleFault false
              (takePath (s.look bounds nul) s.circleFault false depth) seen₁
              (written rooted₁ above₁) fs := by
  have hisName : IsName name := hname.plain.toIsName
  have hnames : ∀ n ∈ above, IsName n := fun n hn => (hplace.accepted n hn).1
  have hlook : s.look bounds nul (written rooted (name :: above)) = .link target :=
    look_written hbounds (hplace.leads d rfl) hname
  cases hseen : seen.lookup (seenAs (written rooted (name :: above))) with
  | some value =>
      cases value with
      | none =>
          have hbusy := (hnotes.underway _ hseen).mem_busy hplace hisName
          exact absurd hbusy (hnotes.not_busy hname hcomes hlt)
      | some known =>
          obtain ⟨rooted₁, above₁, rfl, hplace₁⟩ :=
            (hnotes.known _ _ hseen).place hplace hname hcomes
          rw [← joinPath_written hisName hnames] at hlook hseen
          exact ⟨seen, rooted₁, above₁, hplace₁, hnotes, fun _ => id,
            fun fs => takeFields_of_known hname.plain hlook hseen⟩
  | none =>
      have hentered := hnotes.enter hplace hname hcomes hlt
      -- this link is underway too, so there is room for one more
      have hlength := hentered.length_le
      rw [List.length_cons] at hlength
      obtain ⟨depth, rfl⟩ : ∃ less, depth = less + 1 := ⟨depth - 1, by omega⟩
      obtain ⟨seen₁, rooted₁, above₁, hfound, hplace₁, hknown, hunderway⟩ :=
        takePath_arrives hplace fun rooted above fs hfs hplace =>
          htarget depth _ _ rooted above fs hfs hplace hentered (by
            rw [List.length_cons]
            omega)
      have hreplaced : Replaced s.tree s.workingDirectory front (written rooted (name :: above))
          (written rooted₁ above₁) :=
        ⟨rooted, above, trail, name, d, target, rfl, hplace, hname,
          rooted₁, above₁, trail₁, o₁, m, rfl, hplace₁, hcomes⟩
      have hleft := underway_of_left (written rooted₁ above₁) hunderway
      rw [← joinPath_written hisName hnames] at hlook hseen hfound hreplaced hleft
      exact ⟨_, rooted₁, above₁, hplace₁, hnotes.leave hknown hreplaced hleft, hleft,
        fun fs => takeFields_of_found hname.plain hlook hseen hfound⟩

theorem takeFields_arrives (hs : Sound s.tree) (hbounds : bounds.pathSize = none)
    (h : Comes s.tree ns trail o trail' o' n) :
    TakesFields s bounds nul front ns trail o trail' o' n := by
  induction h with
  | nil =>
      intro depth seen busy rooted above fs hfs hplace hnotes _
      have hempty : ∀ e ∈ fs, e = [] := by simpa [List.filter_eq_nil_iff] using hfs
      refine ⟨seen, rooted, above, ?_, hplace, hnotes.known, fun _ => id⟩
      rw [← List.append_nil fs, takeFields_append hempty]
      rfl
  | go hgoes _ ih =>
      intro depth seen busy rooted above fs hfs hplace hnotes hdepth
      obtain ⟨es, fs, rfl, hes, -, hfs⟩ := List.filter_eq_cons_iff.mp hfs
      have hempty : ∀ e ∈ es, e = [] := by simpa using hes
      obtain ⟨above₁, hplace₁, htaken⟩ := takeFields_of_goes hs hbounds hgoes hplace
      rw [takeFields_append hempty, htaken]
      exact ih depth seen busy rooted above₁ fs hfs hplace₁ (hnotes.cheaper (Nat.le_succ _)) hdepth
  | follow hfinds hcomes _ ihtarget ih =>
      intro depth seen busy rooted above fs hfs hplace hnotes hdepth
      obtain ⟨es, fs, rfl, hes, -, hfs⟩ := List.filter_eq_cons_iff.mp hfs
      have hempty : ∀ e ∈ es, e = [] := by simpa using hes
      obtain ⟨seen₁, rooted₁, above₁, hplace₁, hnotes₁, hleft, htaken⟩ :=
        takeFields_of_follow hbounds hfinds hcomes ihtarget hplace hnotes (by omega) hdepth
      rw [takeFields_append hempty, htaken]
      obtain ⟨seen₂, rooted₂, above₂, hfound, hplace₂, hknown, hunderway⟩ :=
        ih depth seen₁ busy rooted₁ above₁ fs hfs hplace₁ (hnotes₁.cheaper (by omega)) hdepth
      exact ⟨seen₂, rooted₂, above₂, hfound, hplace₂, hknown, fun path hpath =>
        hleft path (hunderway path hpath)⟩

/-- Nothing is noted at the start. -/
theorem notes_nil (cost : Nat) : Notes s.tree s.workingDirectory front [] [] cost :=
  ⟨nofun, nofun, List.nodup_nil, nofun⟩

theorem linkCount_lt_lookDepth (t : Tree) : linkCount t < lookDepth t := by
  have hmul : (linkCount t + 1) * 1 ≤ (linkCount t + 1) * (t.directories.length + 2) :=
    Nat.mul_le_mul_left _ (by omega)
  unfold lookDepth
  omega

/-- What the names of a path come to is its canonical form by its text. -/
theorem lexicalPath_of_comes (hs : Sound s.tree) (hbounds : bounds.pathSize = none)
    (hnesting : ∀ n, bounds.nesting = some n → linkCount s.tree < n) {above : List Name}
    (hw : s.workingPath = .ok (pathOf above))
    (habove : s.tree.node? above = some (.directory s.workingDirectory))
    (h : Comes s.tree (names path) (linkTrail path above.reverse)
      (some (Tree.walkStart s.workingDirectory path)) trail o n) :
    s.lexicalPath bounds nul false path = .ok (trailPath trail) := by
  have hplain : ∀ n ∈ above, IsPlainName n := fun n hn => (hs.plain_of_nodeFrom? habove n hn).1
  have hplace : Place s.tree s.workingDirectory above.reverse false [] above.reverse
      (some s.workingDirectory) :=
    ⟨fun _ hn => absurd hn List.not_mem_nil, rfl, fun d hd => Option.some.inj hd ▸ .here⟩
  obtain ⟨depth, hdepth, hlinks⟩ : ∃ depth,
      bounds.nesting.getD (lookDepth s.tree) = depth + 1 ∧ linkCount s.tree ≤ depth := by
    have hlt : linkCount s.tree < bounds.nesting.getD (lookDepth s.tree) := by
      cases hbound : bounds.nesting with
      | none => exact linkCount_lt_lookDepth s.tree
      | some n => exact hnesting n hbound
    exact ⟨bounds.nesting.getD (lookDepth s.tree) - 1, by omega, by omega⟩
  obtain ⟨seen, rooted, above', htaken, hplace', -, -⟩ :
      Arrives s above.reverse [] (takePath (s.look bounds nul) s.circleFault false (depth + 1) []
        (written false []) path) trail o :=
    takePath_arrives hplace fun rooted above fs hfs hplace =>
      takeFields_arrives hs hbounds h depth [] [] rooted above fs hfs hplace (notes_nil n) hlinks
  have hstart : written false [] = [] := rfl
  rw [hstart] at htaken
  unfold lexicalPath canonical
  rw [hdepth, htaken, hw]
  show absolute (.ok (pathOf above)) (written rooted above') = _
  rw [absolute_written hplain hplace'.accepted, ← hplace'.trail_eq]

end

end PathResolution
