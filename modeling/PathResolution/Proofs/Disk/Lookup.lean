/-
What the disk finds under a name.

A resolution asks for one name at a time, in a directory that it holds open, and
one who works on the text of a path asks for the whole path. Both get to the
same entry: what is found at the end of a path is what is found under its last
name in the directory that the names before it lead to
(`targetFrom_of_locate`), and a path of directories and `..` leads there without
a link (`Leads.walkNames`).

`Finds` says what a name stands for in a directory. It can be asked about only
if the system does not refuse the name and the name is not too long, and it
stands for the entry of its kept form.
-/
import PathResolution.Proofs.Disk.Shape
import PathResolution.Proofs.Resolution.TreeView
import PathResolution.Resolution

namespace PathResolution.Disk

variable {t : Tree} {d c start : DirId} {name : Name} {above rest : List Name} {links : Nat}

-- ================================================================= names

/-- What a plain name stands for in a directory, nothing included. -/
structure Finds (t : Tree) (d : DirId) (name : Name) (found : Option Node) : Prop where
  plain : IsPlainName name
  accepted : objection? name = none
  fits : isTooLongIn t d (kept name) = false
  entry?_eq : t.entry? d (kept name) = found

theorem Finds.encodable {found : Option Node} (h : Finds t d name found) : Encodable name :=
  encodable_of_refusal? (refusal?_of_objection? h.accepted)

theorem Finds.unique {found found' : Option Node} (h : Finds t d name found)
    (h' : Finds t d name found') : found = found' :=
  h.entry?_eq.symm.trans h'.entry?_eq

theorem walkNames_nil (node : Node) : walkNames t links node [] = .ok (node, links) := by
  rw [walkNames]

section

variable {path : Text} {above : List Name} {last : Name} {holder : DirId}

/-- The end of a path is found under its last name, in the directory that the
names before it lead to. -/
theorem locate_eq {left : Nat} (hnames : names (kept path) = above ++ [last])
    (hwalk : walkNames t maxLinks (.directory (Tree.walkStart d (kept path))) above
      = .ok (.directory holder, left)) :
    locate t d path =
      if isTooLongIn t holder last then .error Errno.nameTooLong else .ok (holder, last) := by
  have hholder : holderWithin t maxLinks d path = .ok (holder, last, left) := by
    simp only [holderWithin, hnames, List.getLast?_concat, List.dropLast_concat, hwalk]
  simp only [locate, hholder]

theorem targetFrom_of_locate (hend : path.getLast? ≠ some separator) (hlast : IsPlainName last)
    (hlocate : locate t d path =
      if isTooLongIn t holder last then .error Errno.nameTooLong else .ok (holder, last)) :
    targetFrom t d path =
      if isTooLongIn t holder last then .error Errno.nameTooLong
      else match t.entry? holder last with
        | none => .error Errno.noEntry
        | some (.link target) => .ok target
        | some _ => .error Errno.invalidArgument := by
  have hdots : ¬ (last = dot ∨ last = dotDot) := fun h => h.elim hlast.ne_dot hlast.ne_dotDot
  simp only [targetFrom, if_neg hend, hlocate]
  cases isTooLongIn t holder last with
  | true => rfl
  | false =>
      refine (if_neg hdots).trans ?_
      cases t.entry? holder last with
      | none => rfl
      | some node => cases node <;> rfl

end

theorem locate_of_plain (h : IsPlainName name) (hn : Encodable name) :
    locate t d name = if isTooLongIn t d (kept name) then .error Errno.nameTooLong
      else .ok (d, kept name) := by
  have hkept := IsPlainName.kept h hn
  have hstart : Tree.walkStart d (kept name) = d := by
    rw [Tree.walkStart, hkept.toIsName.isAbsolute_eq]
    rfl
  have hnames : names (kept name) = [] ++ [kept name] := hkept.toIsName.names_eq
  have hwalk : walkNames t maxLinks (.directory (Tree.walkStart d (kept name))) []
      = .ok (.directory d, maxLinks) := by rw [hstart, walkNames_nil]
  exact locate_eq hnames hwalk

/-- What is answered to the question for the target of a link in a directory. -/
def targetAt (t : Tree) (d : DirId) (name : Name) : Except Fault Text :=
  match objection? name with
  | some fault => .error fault
  | none =>
    match targetFrom t d name with
    | .error code => .error (faultAt code name)
    | .ok target => .ok target

theorem targetFrom_of_plain (h : IsPlainName name) (hn : Encodable name) :
    targetFrom t d name =
      if isTooLongIn t d (kept name) then .error Errno.nameTooLong
      else match t.entry? d (kept name) with
        | none => .error Errno.noEntry
        | some (.link target) => .ok target
        | some _ => .error Errno.invalidArgument :=
  targetFrom_of_locate (h.toIsName.getLast?_append_ne []) (IsPlainName.kept h hn)
    (locate_of_plain h hn)

/-- Either the name cannot be asked about, or the answer says what it stands
for. -/
theorem targetAt_cases (t : Tree) (d : DirId) (h : IsPlainName name) :
    (∃ fault, targetAt t d name = .error fault
        ∧ (fault.report? = none ∨ fault.report? = some (some Errno.nameTooLong)))
      ∨ ∃ found, Finds t d name found ∧ targetAt t d name = match found with
          | none => .error (faultAt Errno.noEntry name)
          | some (.link target) => .ok target
          | some _ => .error (faultAt Errno.invalidArgument name) := by
  cases hobjection : objection? name with
  | some fault =>
      refine .inl ⟨fault, by simp only [targetAt, hobjection], ?_⟩
      unfold objection? at hobjection
      split at hobjection
      · cases hobjection
        exact .inl rfl
      · split at hobjection
        · cases hobjection
          exact .inr rfl
        · cases hobjection
  | none =>
      have hn : Encodable name := encodable_of_refusal? (refusal?_of_objection? hobjection)
      simp only [targetAt, hobjection, targetFrom_of_plain h hn]
      cases hfits : isTooLongIn t d (kept name) with
      | true => exact .inl ⟨_, rfl, .inr rfl⟩
      | false =>
          refine .inr ⟨_, ⟨h, hobjection, hfits, rfl⟩, ?_⟩
          rw [if_neg Bool.false_ne_true]
          cases t.entry? d (kept name) with
          | none => rfl
          | some node => cases node <;> rfl

-- ========================================================== directories

theorem walk_of_plain (h : IsPlainName name) (hn : Encodable name) :
    walk t d name = (walkNames t maxLinks (.directory d) [kept name]).map (·.1) := by
  have hkept := IsPlainName.kept h hn
  have hend : (kept name).getLast? ≠ some separator :=
    hkept.toIsName.getLast?_append_ne []
  have hstart : Tree.walkStart d (kept name) = d := by
    rw [Tree.walkStart, hkept.toIsName.isAbsolute_eq]
    rfl
  have hne : (kept name).isEmpty = false := List.isEmpty_eq_false_iff.mpr hkept.ne_nil
  simp only [walk, namesToTake, if_neg hend, hkept.toIsName.names_eq, hstart, hne,
    Bool.false_eq_true, if_false]

theorem walkNames_of_directory (h : Finds t d name (some (.directory c))) :
    walkNames t links (.directory d) (kept name :: rest)
      = walkNames t links (.directory c) rest := by
  have hkept := IsPlainName.kept h.plain h.encodable
  rw [walkNames, if_neg hkept.ne_dot, if_neg hkept.ne_dotDot, h.fits, if_neg Bool.false_ne_true,
    h.entry?_eq]

theorem walkNames_dotDot : walkNames t links (.directory d) (dotDot :: rest)
    = walkNames t links (.directory (t.parent d)) rest := by
  rw [walkNames, if_neg (by decide), if_pos rfl]

/-- A name of a directory opens it. -/
theorem Finds.directoryAt (h : Finds t d name (some (.directory c))) :
    directoryAt t d name = .ok c := by
  unfold Disk.directoryAt
  rw [walk_of_plain h.plain h.encodable, walkNames_of_directory h, walkNames_nil]
  rfl

/-- A name of a file opens nothing. -/
theorem Finds.directoryAt_ne_ok (h : Finds t d name (some .file)) :
    Disk.directoryAt t d name ≠ .ok c := by
  have hkept := IsPlainName.kept h.plain h.encodable
  have hwalk : walkNames t maxLinks (.directory d) [kept name] = .ok (.file, maxLinks) := by
    rw [walkNames, if_neg hkept.ne_dot, if_neg hkept.ne_dotDot, h.fits,
      if_neg Bool.false_ne_true, h.entry?_eq]
    exact walkNames_nil _
  unfold Disk.directoryAt
  rw [walk_of_plain h.plain h.encodable, hwalk]
  intro hopens
  cases hopens

theorem directoryAt_dotDot : directoryAt t d dotDot = .ok (t.parent d) := by
  have hwalk : walk t d dotDot
      = (walkNames t maxLinks (.directory d) [dotDot]).map (·.1) := rfl
  unfold directoryAt
  rw [hwalk, walkNames_dotDot, walkNames_nil]
  rfl

-- ================================================================= paths

/-- Names that lead from one directory to another through directories and `..`,
the last one first. -/
inductive Leads (t : Tree) (start : DirId) : List Name → DirId → Prop
  | here : Leads t start [] start
  | climb {above : List Name} {d : DirId} :
      Leads t start above d → Leads t start (dotDot :: above) (t.parent d)
  | enter {above : List Name} {name : Name} {d c : DirId} : Leads t start above d →
      Finds t d name (some (.directory c)) → Leads t start (name :: above) c

/-- The walk along such names gets there with all of its links left. -/
theorem Leads.walkNames (h : Leads t start above d) (rest : List Name) :
    Disk.walkNames t links (.directory start) (above.reverse.map kept ++ rest)
      = Disk.walkNames t links (.directory d) rest := by
  induction h generalizing rest with
  | here => rfl
  | climb _ ih =>
      rw [List.reverse_cons, List.map_append, List.append_assoc, ih]
      exact walkNames_dotDot
  | enter _ hname ih =>
      rw [List.reverse_cons, List.map_append, List.append_assoc, ih]
      exact walkNames_of_directory hname

theorem Leads.unique (h : Leads t start above d) (h' : Leads t start above c) : d = c := by
  have hwalk : Disk.walkNames t 0 (.directory d) [] = Disk.walkNames t 0 (.directory c) [] :=
    (h.walkNames []).symm.trans (h'.walkNames [])
  rw [walkNames_nil, walkNames_nil] at hwalk
  injection hwalk with hwalk
  injection (Prod.mk.inj hwalk).1

/-- The names on the way are no `.`, and the system refuses none of them. -/
theorem Leads.accepted (h : Leads t start above d) :
    ∀ n ∈ above, IsName n ∧ n ≠ dot ∧ refusal? n = none := by
  induction h with
  | here => exact fun _ hn => absurd hn List.not_mem_nil
  | climb _ ih =>
      exact List.forall_mem_cons.mpr ⟨⟨Tree.isName_dotDot, by decide, rfl⟩, ih⟩
  | enter _ hname ih =>
      refine List.forall_mem_cons.mpr ⟨⟨hname.plain.toIsName, hname.plain.ne_dot, ?_⟩, ih⟩
      exact refusal?_of_objection? hname.accepted

/-- The directory above the last one is its parent. -/
theorem Leads.tail (hs : Sound t) (h : Leads t start (name :: above) d)
    (hname : name ≠ dotDot) : Leads t start above (t.parent d) := by
  cases h with
  | climb _ => exact absurd rfl hname
  | enter h hfinds => rwa [hs.parent_of_entry _ _ _ hfinds.entry?_eq]

end PathResolution.Disk
