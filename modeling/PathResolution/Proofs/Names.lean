/-
Reading a path and writing one undo each other.

A path is read as the names between its slashes. Two paths with a slash
between them are read as the names of the one and then those of the other
(`names_append`), so a path can be taken apart wherever a slash stands; what
is read holds no slash and is never empty (`isName_of_mem_names`); and names
that are written as a path are read as they were (`names_pathOf`).

`IsCanonical` is the form that a resolution promises: a slash and names joined
by single slashes, none of which is `.` or `..`. The names of a canonical path
are determined by it, so a statement about "the names of the answer" can speak
of the list that the answer was written from.
-/
import PathResolution.Path

namespace PathResolution

-- ======================================================= kinds of names

/-- What a path can have between its slashes: at least one code point, and no
slash. -/
structure IsName (n : Name) : Prop where
  ne_nil : n ≠ []
  separator_not_mem : separator ∉ n

/-- A name that stands for an entry of a directory, and for no way through
it. -/
structure IsPlainName (n : Name) : Prop extends IsName n where
  ne_dot : n ≠ dot
  ne_dotDot : n ≠ dotDot

/-- None of these names says a way. -/
def ArePlain (ns : List Name) : Prop := dot ∉ ns ∧ dotDot ∉ ns

instance (ns : List Name) : Decidable (ArePlain ns) :=
  inferInstanceAs (Decidable (dot ∉ ns ∧ dotDot ∉ ns))

theorem arePlain_of_isPlainName {ns : List Name} (h : ∀ n ∈ ns, IsPlainName n) : ArePlain ns :=
  ⟨fun hdot => (h dot hdot).ne_dot rfl, fun hdotDot => (h dotDot hdotDot).ne_dotDot rfl⟩

theorem ArePlain.isPlainName {ns : List Name} (h : ArePlain ns) (hns : ∀ n ∈ ns, IsName n)
    {n : Name} (hn : n ∈ ns) : IsPlainName n :=
  ⟨hns n hn, fun hdot => h.1 (hdot ▸ hn), fun hdotDot => h.2 (hdotDot ▸ hn)⟩

theorem arePlain_concat_iff {ns : List Name} {n : Name} :
    ArePlain (ns ++ [n]) ↔ ArePlain ns ∧ n ≠ dot ∧ n ≠ dotDot := by
  simp only [ArePlain, List.mem_append, List.mem_singleton, not_or]
  constructor
  · rintro ⟨⟨hdot, hn⟩, hdotDot, hn'⟩
    exact ⟨⟨hdot, hdotDot⟩, Ne.symm hn, Ne.symm hn'⟩
  · rintro ⟨⟨hdot, hdotDot⟩, hn, hn'⟩
    exact ⟨⟨hdot, Ne.symm hn⟩, hdotDot, Ne.symm hn'⟩

/-- A slash and plain names joined by single slashes; the root is the slash
alone. -/
def IsCanonical (path : Text) : Prop :=
  ∃ ns : List Name, path = pathOf ns ∧ ∀ n ∈ ns, IsPlainName n

-- ================================================================ parts

variable {mark : CodePoint}

theorem partsAt_ne_nil (t : Text) : partsAt mark t ≠ [] := by
  cases t with
  | nil => simp [partsAt]
  | cons c rest =>
      rw [partsAt]
      split
      · simp
      · split <;> simp

theorem partsAt_cons_mark (t : Text) :
    partsAt mark (mark :: t) = [] :: partsAt mark t := by
  rw [partsAt, if_pos rfl]

/-- Any other code point belongs to the part that it stands in front of. -/
theorem partsAt_cons_of_ne {c : CodePoint} (hc : c ≠ mark) (t : Text) :
    ∃ part more, partsAt mark t = part :: more
      ∧ partsAt mark (c :: t) = (c :: part) :: more := by
  cases ht : partsAt mark t with
  | nil => exact absurd ht (partsAt_ne_nil t)
  | cons part more =>
      refine ⟨part, more, rfl, ?_⟩
      rw [partsAt, if_neg hc, ht]

/-- The mark divides the parts as it divides the text. -/
theorem partsAt_append (a b : Text) :
    partsAt mark (a ++ mark :: b) = partsAt mark a ++ partsAt mark b := by
  induction a with
  | nil => exact partsAt_cons_mark b
  | cons c a ih =>
      by_cases hc : c = mark
      · subst hc
        rw [List.cons_append, partsAt_cons_mark, partsAt_cons_mark, ih,
          List.cons_append]
      · obtain ⟨part, more, ha, hca⟩ := partsAt_cons_of_ne hc a
        obtain ⟨part', more', hab, hcab⟩ :=
          partsAt_cons_of_ne hc (a ++ mark :: b)
        rw [ih, ha, List.cons_append] at hab
        obtain ⟨rfl, rfl⟩ := List.cons_eq_cons.mp hab
        rw [List.cons_append, hcab, hca, List.cons_append]

theorem partsAt_of_not_mem {t : Text} (h : mark ∉ t) :
    partsAt mark t = [t] := by
  induction t with
  | nil => rfl
  | cons c t ih =>
      rw [List.mem_cons, not_or] at h
      obtain ⟨part, more, ht, hct⟩ := partsAt_cons_of_ne (Ne.symm h.1) t
      rw [ih h.2] at ht
      obtain ⟨rfl, rfl⟩ := List.cons_eq_cons.mp ht
      exact hct

theorem not_mem_of_mem_partsAt {t part : Text} (h : part ∈ partsAt mark t) :
    mark ∉ part := by
  induction t generalizing part with
  | nil =>
      rw [partsAt, List.mem_singleton] at h
      rw [h]
      exact List.not_mem_nil
  | cons c t ih =>
      by_cases hc : c = mark
      · rw [hc, partsAt_cons_mark, List.mem_cons] at h
        rcases h with rfl | h
        · exact List.not_mem_nil
        · exact ih h
      · obtain ⟨first, more, ht, hct⟩ := partsAt_cons_of_ne hc t
        rw [hct, List.mem_cons] at h
        rcases h with rfl | h
        · rw [List.mem_cons, not_or]
          exact ⟨Ne.symm hc, ih (ht ▸ List.mem_cons_self)⟩
        · exact ih (ht ▸ List.mem_cons_of_mem _ h)

-- ============================================================== reading

@[simp]
theorem names_nil : names [] = [] := rfl

/-- A slash divides the names as it divides the path. -/
theorem names_append (a b : Text) :
    names (a ++ separator :: b) = names a ++ names b := by
  unfold names fields
  rw [partsAt_append, List.filter_append]

@[simp]
theorem names_separator_cons (path : Text) :
    names (separator :: path) = names path :=
  names_append [] path

/-- What is read from a path are names. -/
theorem isName_of_mem_names {path : Text} {n : Name} (h : n ∈ names path) :
    IsName n := by
  unfold names at h
  obtain ⟨hpart, hne⟩ := List.mem_filter.mp h
  exact ⟨by simpa using hne, not_mem_of_mem_partsAt hpart⟩

theorem IsName.names_eq {n : Name} (h : IsName n) : names n = [n] := by
  unfold names fields
  rw [partsAt_of_not_mem h.separator_not_mem]
  simp [h.ne_nil]

theorem IsName.isAbsolute_eq {n : Name} (h : IsName n) :
    isAbsolute n = false := by
  cases n with
  | nil => exact absurd rfl h.ne_nil
  | cons c rest =>
      have hc : c ≠ separator := fun hc =>
        h.separator_not_mem (hc ▸ List.mem_cons_self)
      simpa [isAbsolute] using hc

/-- A path does not end in a slash if it ends in a name. -/
theorem IsName.getLast?_append_ne {n : Name} (h : IsName n) (path : Text) :
    (path ++ n).getLast? ≠ some separator := by
  rw [List.getLast?_append]
  intro heq
  cases hlast : n.getLast? with
  | none => exact h.ne_nil (List.getLast?_eq_none_iff.mp hlast)
  | some c =>
      rw [hlast] at heq
      injection heq with heq
      exact h.separator_not_mem (heq ▸ List.mem_of_getLast? hlast)

-- ============================================================== writing

theorem joined_singleton (n : Name) : joined [n] = n :=
  List.intercalate_singleton

theorem joined_cons_cons (n m : Name) (ns : List Name) :
    joined (n :: m :: ns) = n ++ separator :: joined (m :: ns) := by
  unfold joined
  rw [List.intercalate_cons_cons, List.append_assoc, List.singleton_append]

theorem names_joined {ns : List Name} (h : ∀ n ∈ ns, IsName n) :
    names (joined ns) = ns := by
  induction ns with
  | nil => rfl
  | cons n ns ih =>
      have hn : IsName n := h n List.mem_cons_self
      have hns : ∀ m ∈ ns, IsName m := fun m hm => h m (List.mem_cons_of_mem _ hm)
      cases ns with
      | nil => rw [joined_singleton, hn.names_eq]
      | cons m ns =>
          rw [joined_cons_cons, names_append, hn.names_eq, ih hns,
            List.singleton_append]

/-- The names of a path that was written from names. -/
theorem names_pathOf {ns : List Name} (h : ∀ n ∈ ns, IsName n) :
    names (pathOf ns) = ns := by
  rw [pathOf, names_separator_cons, names_joined h]

/-- Names that were read can be written, and are read again as they were. -/
theorem names_pathOf_names (path : Text) : names (pathOf (names path)) = names path :=
  names_pathOf fun _ => isName_of_mem_names

@[simp]
theorem isAbsolute_pathOf (ns : List Name) : isAbsolute (pathOf ns) = true := by
  simp [isAbsolute, pathOf]

end PathResolution
