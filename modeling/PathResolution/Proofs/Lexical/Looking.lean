/-
What is seen where a text leads.

One who works on the text of a path asks the disk for a whole path each time. If
the names before the last one lead to a directory, then what is seen is what
the last name stands for there (`look_written`). No name is read but as the disk
keeps it, and a text is kept name by name (`kept_written`).
-/
import PathResolution.Proofs.Disk.Lookup
import PathResolution.Proofs.Lexical.Writing

namespace PathResolution.Disk

open Lexical

variable {s : Disk} {bounds : Bounds} {nul : Refusal} {rooted : Bool} {name : Name}
  {above : List Name} {d : DirId} {found : Option Node}

theorem kept_written (h : ∀ n ∈ above, Encodable n) :
    kept (written rooted above) = written rooted (above.map kept) := by
  have hreverse : ∀ n ∈ above.reverse, Encodable n := fun n hn => h n (List.mem_reverse.mp hn)
  have hjoined : kept (joined above.reverse) = joined (above.map kept).reverse := by
    rw [kept_joined hreverse, List.map_reverse]
  cases rooted with
  | true =>
      have hbody : Encodable (joined above.reverse) := fun c hc =>
        encodable_pathOf hreverse c (List.mem_cons_of_mem _ hc)
      have hpath : kept ([] ++ separator :: joined above.reverse)
          = [] ++ separator :: kept (joined above.reverse) :=
        kept_append_separator (fun _ hc => absurd hc List.not_mem_nil) hbody
      show kept ([] ++ separator :: joined above.reverse) = _
      rw [hpath, hjoined]
      rfl
  | false => exact hjoined

theorem mem_written {c : CodePoint} (h : c ∈ written rooted above) :
    c = separator ∨ ∃ n ∈ above, c ∈ n := by
  have hjoined : c ∈ joined above.reverse → c = separator ∨ ∃ n ∈ above, c ∈ n := by
    intro hc
    rcases mem_joined hc with hc | ⟨n, hn, hc⟩
    · exact .inl hc
    · exact .inr ⟨n, List.mem_reverse.mp hn, hc⟩
  cases rooted with
  | true =>
      rcases List.mem_cons.mp h with hc | hc
      · exact .inl hc
      · exact hjoined hc
  | false => exact hjoined h

/-- A path is refused only if one of its names is. -/
theorem refusal?_written (h : ∀ n ∈ above, refusal? n = none) :
    refusal? (written rooted above) = none := by
  rw [refusal?_eq_none_iff]
  constructor
  · intro c hc
    rcases mem_written hc with rfl | ⟨n, hn, hc⟩
    · rfl
    · exact (refusal?_eq_none_iff.mp (h n hn)).1 c hc
  · intro hzero
    rcases mem_written hzero with hc | ⟨n, hn, hc⟩
    · cases hc
    · exact (refusal?_eq_none_iff.mp (h n hn)).2 hc

/-- The directory that a text is read from. -/
def startOf (rooted : Bool) (w : DirId) : DirId := if rooted then Tree.root else w

/-- What is seen where a text leads is what its last name stands for. -/
theorem look_written (hbounds : bounds.pathSize = none)
    (habove : Leads s.tree (startOf rooted s.workingDirectory) above d)
    (hname : Finds s.tree d name found) :
    s.look bounds nul (written rooted (name :: above)) = match found with
      | none => .missing (faultAt Errno.noEntry (written rooted (name :: above)))
      | some (.link target) => .link target
      | some _ => .plain := by
  have hrefusal : ∀ n ∈ name :: above, refusal? n = none :=
    List.forall_mem_cons.mpr
      ⟨refusal?_of_objection? hname.accepted, fun n hn => (habove.accepted n hn).2.2⟩
  have hencodable : ∀ n ∈ name :: above, Encodable n := fun n hn =>
    encodable_of_refusal? (hrefusal n hn)
  have hnames : ∀ n ∈ name :: above, IsName n :=
    List.forall_mem_cons.mpr ⟨hname.plain.toIsName, fun n hn => (habove.accepted n hn).1⟩
  have hkeptNames : ∀ n ∈ (name :: above).map kept, IsName n := by
    intro n hn
    obtain ⟨m, hm, rfl⟩ := List.mem_map.mp hn
    exact IsName.kept (hnames m hm) (hencodable m hm)
  have hend := getLast?_written_cons rooted hname.plain.toIsName above
  have hkept : kept (written rooted (name :: above)) = written rooted ((name :: above).map kept) :=
    kept_written hencodable
  have hlast : names (kept (written rooted (name :: above)))
      = above.reverse.map kept ++ [kept name] := by
    rw [hkept, names_written hkeptNames, List.map_cons, List.reverse_cons, List.map_reverse]
  have hstart : Tree.walkStart s.workingDirectory (kept (written rooted (name :: above)))
      = startOf rooted s.workingDirectory := by
    rw [hkept, Tree.walkStart, isAbsolute_written hkeptNames, startOf]
  have hwalk : walkNames s.tree maxLinks
      (.directory (Tree.walkStart s.workingDirectory (kept (written rooted (name :: above)))))
      (above.reverse.map kept) = .ok (.directory d, maxLinks) := by
    have hleads : walkNames s.tree maxLinks (.directory (startOf rooted s.workingDirectory))
        (above.reverse.map kept ++ []) = walkNames s.tree maxLinks (.directory d) [] :=
      habove.walkNames []
    rw [List.append_nil, walkNames_nil] at hleads
    rw [hstart, hleads]
  have hexclude : bounds.exclude (written rooted (name :: above)) = false := by
    rw [Bounds.exclude, hbounds]
    rfl
  have htarget := targetFrom_of_locate hend (IsPlainName.kept hname.plain hname.encodable)
    (locate_eq hlast hwalk)
  rw [hname.fits, if_neg Bool.false_ne_true, hname.entry?_eq] at htarget
  simp only [look, refusal?_written hrefusal, hexclude, Bool.false_eq_true, if_false, htarget]
  cases found with
  | none => rfl
  | some node => cases node <;> rfl

end PathResolution.Disk
