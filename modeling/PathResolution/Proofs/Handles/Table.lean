/-
The handle table as a finite map.

In a well-formed table no number stands twice and every number is below the
next one, so a handle that is given out was never open before. Adding and
closing keep that, change the directory of no other handle, and change the set
of open handles by the one handle that they are about.
-/
import Mathlib.Data.Finset.Card
import PathResolution.HandleTable

namespace PathResolution.HandleTable

variable {table closed : HandleTable} {h other : Handle} {d : DirId}

/-- The numbers that are given out are below the next one, each once. -/
structure WellFormed (table : HandleTable) : Prop where
  lt_next : ∀ e ∈ table.opened, e.1 < table.next
  nodup : (table.opened.map Prod.fst).Nodup

def handles (table : HandleTable) : Finset Handle := (table.opened.map Prod.fst).toFinset

-- =============================================================== looking

theorem mem_handles : h ∈ table.handles ↔ (table.directory? h).isSome := by
  unfold handles directory?
  rw [List.mem_toFinset, List.lookup_isSome_iff, List.mem_map]
  constructor
  · intro hmem
    obtain ⟨e, he, rfl⟩ := hmem
    exact ⟨e, he, beq_self_eq_true _⟩
  · intro hopen
    obtain ⟨e, he, heq⟩ := hopen
    exact ⟨e, he, (eq_of_beq heq).symm⟩

/-- A handle that is open is below the next one. -/
theorem WellFormed.lt_of_directory? (wf : table.WellFormed) (hd : table.directory? h = some d) :
    h < table.next := by
  obtain ⟨l₁, l₂, heq, -⟩ := List.lookup_eq_some_iff.mp hd
  have hmem : (h, d) ∈ table.opened := by
    rw [heq]
    exact List.mem_append_right _ List.mem_cons_self
  exact wf.lt_next _ hmem

theorem WellFormed.directory?_next (wf : table.WellFormed) :
    table.directory? table.next = none := by
  cases hd : table.directory? table.next with
  | none => rfl
  | some d => exact absurd (wf.lt_of_directory? hd) (lt_irrefl _)

theorem WellFormed.size_eq (wf : table.WellFormed) : table.size = table.handles.card := by
  unfold size handles
  rw [List.toFinset_card_of_nodup wf.nodup, List.length_map]

-- =============================================================== opening

theorem empty_wellFormed : empty.WellFormed := ⟨nofun, List.nodup_nil⟩

theorem WellFormed.add (wf : table.WellFormed) (d : DirId) : (table.add d).2.WellFormed := by
  constructor
  · intro e he
    show e.1 < table.next + 1
    rcases List.mem_append.mp he with he | he
    · exact lt_trans (wf.lt_next e he) (Int.lt_succ table.next)
    · rw [List.mem_singleton.mp he]
      exact Int.lt_succ table.next
  · show ((table.opened ++ [(table.next, d)]).map Prod.fst).Nodup
    rw [List.map_append, List.nodup_append]
    refine ⟨wf.nodup, List.nodup_singleton _, ?_⟩
    intro a ha b hb heq
    subst heq
    obtain ⟨e, he, rfl⟩ := List.mem_map.mp ha
    have hlt := wf.lt_next e he
    rw [List.mem_singleton.mp hb] at hlt
    exact lt_irrefl _ hlt

/-- The new handle stands for the directory that was opened. -/
theorem WellFormed.directory?_add_next (wf : table.WellFormed) (d : DirId) :
    (table.add d).2.directory? table.next = some d := by
  show (table.opened ++ [(table.next, d)]).lookup table.next = some d
  rw [List.lookup_append, show table.opened.lookup table.next = none from wf.directory?_next]
  exact List.lookup_cons_self

theorem directory?_add_of_ne (d : DirId) (hne : h ≠ table.next) :
    (table.add d).2.directory? h = table.directory? h := by
  show (table.opened ++ [(table.next, d)]).lookup h = table.opened.lookup h
  have hnext : (h == table.next) = false := by simpa using hne
  rw [List.lookup_append, List.lookup_cons, hnext, List.lookup_nil]
  exact Option.or_none

theorem handles_add (d : DirId) :
    (table.add d).2.handles = insert table.next table.handles := by
  ext h
  show h ∈ ((table.opened ++ [(table.next, d)]).map Prod.fst).toFinset ↔ _
  simp [handles]

-- =============================================================== closing

theorem close?_eq_some_iff :
    table.close? h = some closed ↔ (table.directory? h).isSome
      ∧ closed = { table with opened := table.opened.filter fun e => e.1 != h } := by
  unfold close?
  split
  · next hopen => simp [hopen, eq_comm]
  · next hopen => simp [hopen]

theorem close?_eq_none_iff : table.close? h = none ↔ table.directory? h = none := by
  unfold close?
  split
  · next hopen => simp [Option.ne_none_iff_isSome.mpr hopen]
  · next hopen => simpa using hopen

theorem WellFormed.close (wf : table.WellFormed) (hc : table.close? h = some closed) :
    closed.WellFormed := by
  obtain ⟨-, rfl⟩ := close?_eq_some_iff.mp hc
  exact ⟨fun e he => wf.lt_next e (List.mem_of_mem_filter he),
    wf.nodup.sublist (List.filter_sublist.map _)⟩

theorem directory?_closed (hc : table.close? h = some closed) : closed.directory? h = none := by
  obtain ⟨-, rfl⟩ := close?_eq_some_iff.mp hc
  refine List.lookup_eq_none_iff.mpr fun e he => ?_
  have hne : e.1 ≠ h := by simpa using (List.mem_filter.mp he).2
  simpa using Ne.symm hne

theorem directory?_close_of_ne (hc : table.close? h = some closed) (hne : other ≠ h) :
    closed.directory? other = table.directory? other := by
  obtain ⟨-, rfl⟩ := close?_eq_some_iff.mp hc
  show (table.opened.filter fun e => e.1 != h).lookup other = table.opened.lookup other
  induction table.opened with
  | nil => rfl
  | cons e rest ih =>
      by_cases heq : e.1 = h
      · have hother : (other == e.1) = false := by simpa [heq] using hne
        rw [List.filter_cons_of_neg (by simpa using heq), ih, List.lookup_cons, hother]
      · rw [List.filter_cons_of_pos (by simpa using heq), List.lookup_cons, List.lookup_cons, ih]

theorem next_closed (hc : table.close? h = some closed) : closed.next = table.next := by
  obtain ⟨-, rfl⟩ := close?_eq_some_iff.mp hc
  rfl

theorem handles_close (hc : table.close? h = some closed) :
    closed.handles = table.handles.erase h := by
  ext other
  rw [Finset.mem_erase, mem_handles, mem_handles]
  by_cases hne : other = h
  · rw [hne, directory?_closed hc]
    simp
  · rw [directory?_close_of_ne hc hne]
    simp [hne]

end PathResolution.HandleTable
