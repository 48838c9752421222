/-
Paths as texts and as lists of names.

One who works on the text of a path never looks at a list of names, and yet the
texts that come about are all written from names (`written`): from a slash if
the path is rooted, else from nothing. Putting a name behind such a text and
going one level up are steps on the list (`joinPath_written`, `up_written`), and
two such texts are the same only if their lists are (`written_inj`).

Making a text absolute goes along its names once more and takes the name before
every `..` away (`retrace`), which is what a resolution does with its trail; so
the text stands for that trail (`absolute_written`).
-/
import PathResolution.LexicalPath
import PathResolution.Proofs.Names
import PathResolution.Resolution

namespace PathResolution

variable {name : Name} {ns above : List Name} {rooted : Bool}

-- =============================================================== writing

theorem joined_concat (hne : ns ≠ []) (name : Name) :
    joined (ns ++ [name]) = joined ns ++ separator :: name := by
  induction ns with
  | nil => exact absurd rfl hne
  | cons first ns ih =>
      cases ns with
      | nil => rw [List.singleton_append, joined_cons_cons, joined_singleton, joined_singleton]
      | cons next ns =>
          rw [List.cons_append, List.cons_append, joined_cons_cons, joined_cons_cons,
            ← List.cons_append, ih (List.cons_ne_nil _ _), List.append_assoc, List.cons_append]

theorem isAbsolute_joined (h : ∀ n ∈ ns, IsName n) : isAbsolute (joined ns) = false := by
  cases ns with
  | nil => rfl
  | cons n ns =>
      have hn : IsName n := h n List.mem_cons_self
      cases ns with
      | nil => rw [joined_singleton, hn.isAbsolute_eq]
      | cons m ns =>
          rw [joined_cons_cons, ← hn.isAbsolute_eq]
          cases n with
          | nil => exact absurd rfl hn.ne_nil
          | cons c n => rfl

namespace Lexical

/-- The text of a path by its names, the last one first. -/
def written (rooted : Bool) (above : List Name) : Text :=
  if rooted then trailPath above else joined above.reverse

theorem written_singleton (name : Name) :
    written rooted [name] = written rooted [] ++ name := by
  cases rooted with
  | true => exact congrArg (separator :: ·) (joined_singleton name)
  | false => exact joined_singleton name

theorem written_cons (hne : above ≠ []) (name : Name) :
    written rooted (name :: above) = written rooted above ++ separator :: name := by
  have hjoined : joined (name :: above).reverse = joined above.reverse ++ separator :: name := by
    rw [List.reverse_cons, joined_concat (by simpa using hne)]
  cases rooted with
  | true => exact congrArg (separator :: ·) hjoined
  | false => exact hjoined

/-- A text ends with the name that it was written from last. -/
theorem exists_written_cons (rooted : Bool) (name : Name) (above : List Name) :
    ∃ head, written rooted (name :: above) = head ++ name := by
  cases above with
  | nil => exact ⟨_, written_singleton name⟩
  | cons last above =>
      refine ⟨written rooted (last :: above) ++ [separator], ?_⟩
      rw [written_cons (List.cons_ne_nil _ _), List.append_assoc, List.singleton_append]

theorem getLast?_written_cons (rooted : Bool) (hname : IsName name) (above : List Name) :
    (written rooted (name :: above)).getLast? ≠ some separator := by
  obtain ⟨head, hhead⟩ := exists_written_cons rooted name above
  rw [hhead]
  exact hname.getLast?_append_ne head

theorem written_cons_ne_nil (rooted : Bool) (hname : IsName name) (above : List Name) :
    written rooted (name :: above) ≠ [] := by
  obtain ⟨head, hhead⟩ := exists_written_cons rooted name above
  rw [hhead]
  exact List.append_ne_nil_of_right_ne_nil head hname.ne_nil

theorem names_written (h : ∀ n ∈ above, IsName n) :
    names (written rooted above) = above.reverse := by
  have hnames : ∀ n ∈ above.reverse, IsName n := fun n hn => h n (List.mem_reverse.mp hn)
  cases rooted with
  | true => exact names_pathOf hnames
  | false => exact names_joined hnames

theorem isAbsolute_written (h : ∀ n ∈ above, IsName n) :
    isAbsolute (written rooted above) = rooted := by
  cases rooted with
  | true => exact isAbsolute_pathOf _
  | false => exact isAbsolute_joined fun n hn => h n (List.mem_reverse.mp hn)

/-- The text determines what it was written from. -/
theorem written_inj {rooted' : Bool} {above' : List Name} (h : ∀ n ∈ above, IsName n)
    (h' : ∀ n ∈ above', IsName n) (heq : written rooted above = written rooted' above') :
    rooted = rooted' ∧ above = above' := by
  have hrooted : isAbsolute (written rooted above) = rooted := isAbsolute_written h
  have hnames : names (written rooted above) = above.reverse := names_written h
  rw [heq, isAbsolute_written h'] at hrooted
  rw [heq, names_written h'] at hnames
  exact ⟨hrooted.symm, (List.reverse_inj.mp hnames).symm⟩

-- ================================================================= steps

theorem joinPath_written (hname : IsName name) (h : ∀ n ∈ above, IsName n) :
    joinPath (written rooted above) name = written rooted (name :: above) := by
  unfold joinPath
  rw [hname.isAbsolute_eq, if_neg Bool.false_ne_true]
  cases above with
  | nil =>
      rw [written_singleton]
      cases rooted <;> rfl
  | cons last above =>
      have hlast : IsName last := h last List.mem_cons_self
      have hne := written_cons_ne_nil rooted hlast above
      have hend := getLast?_written_cons rooted hlast above
      rw [if_neg (by simpa [hne] using hend), written_cons (List.cons_ne_nil _ _)]

/-- A text falls into what stands before the last name, and that name. -/
theorem splitLast_append {head : Text} (hhead : head = [] ∨ ∃ front, head = front ++ [separator])
    (hname : IsName name) :
    splitLast (head ++ name) =
      (if ((head.reverse.dropWhile (· == separator)).reverse).isEmpty then head
        else (head.reverse.dropWhile (· == separator)).reverse, name) := by
  have hlast : ((head ++ name).reverse.takeWhile (· != separator)).reverse = name := by
    rw [List.reverse_append, List.takeWhile_append_of_pos]
    · rcases hhead with rfl | ⟨front, rfl⟩
      · simp
      · simp
    · intro c hc
      have hne : c ≠ separator := fun heq =>
        hname.separator_not_mem (heq ▸ List.mem_reverse.mp hc)
      simpa using hne
  unfold splitLast
  simp only [hlast, List.length_append, Nat.add_sub_cancel, List.take_left']

theorem splitLast_written (hname : IsName name) (h : ∀ n ∈ above, IsName n) :
    splitLast (written rooted (name :: above)) = (written rooted above, name) := by
  cases above with
  | nil =>
      rw [written_singleton, splitLast_append _ hname]
      · cases rooted <;> rfl
      · cases rooted with
        | true => exact .inr ⟨[], rfl⟩
        | false => exact .inl rfl
  | cons last above =>
      have hlast : IsName last := h last List.mem_cons_self
      have hne := written_cons_ne_nil rooted hlast above
      have hend := getLast?_written_cons rooted hlast above
      obtain ⟨front, c, hfront⟩ : ∃ front c, written rooted (last :: above) = front ++ [c] :=
        ⟨_, _, (List.dropLast_concat_getLast hne).symm⟩
      have hc : c ≠ separator := by simpa [hfront] using hend
      have hhead : written rooted (last :: above) ++ separator :: name
          = (written rooted (last :: above) ++ [separator]) ++ name := by simp
      rw [written_cons (List.cons_ne_nil _ _), hhead, splitLast_append (.inr ⟨_, rfl⟩) hname,
        hfront]
      simp [hc]

/-- The names one level up. -/
def climbed (rooted : Bool) : List Name → List Name
  | [] => if rooted then [] else [dotDot]
  | last :: above => if last = dotDot then dotDot :: last :: above else above

theorem up_written (h : ∀ n ∈ above, IsName n) :
    up (written rooted above) = written rooted (climbed rooted above) := by
  cases above with
  | nil => cases rooted <;> rfl
  | cons last above =>
      obtain ⟨hlast, habove⟩ := List.forall_mem_cons.mp h
      have hne : (written rooted (last :: above)).isEmpty = false :=
        List.isEmpty_eq_false_iff.mpr (written_cons_ne_nil rooted hlast above)
      simp only [up, climbed, splitLast_written hlast habove, hne, Bool.false_eq_true, if_false]
      split
      · next hdotDot =>
        have hname : IsName dotDot := hdotDot ▸ hlast
        rw [joinPath_written hname habove,
          joinPath_written hname (List.forall_mem_cons.mpr ⟨hname, habove⟩), hdotDot]
      · rfl

-- ============================================================== absolute

/-- The trail that names leave, taken behind another trail. -/
def retrace (start : List Name) : List Name → List Name
  | [] => start
  | name :: above =>
    if name = dotDot then (retrace start above).tail else name :: retrace start above

theorem retrace_append (start back : List Name) :
    retrace start (above ++ back) = retrace (retrace start back) above := by
  induction above with
  | nil => rfl
  | cons name above ih => rw [List.cons_append, retrace, retrace, ih]

theorem retrace_of_plain (h : ∀ n ∈ above, n ≠ dotDot) : retrace [] above = above := by
  induction above with
  | nil => rfl
  | cons name above ih =>
      obtain ⟨hname, habove⟩ := List.forall_mem_cons.mp h
      rw [retrace, if_neg hname, ih habove]

theorem retrace_climbed (start : List Name) (hstart : rooted = true → start = []) :
    retrace start (climbed rooted above) = (retrace start above).tail := by
  cases above with
  | nil =>
      cases rooted with
      | true => rw [hstart rfl]; rfl
      | false => rfl
  | cons last above =>
      rw [climbed]
      split
      · next hlast => rw [retrace, if_pos rfl]
      · next hlast => rw [retrace, if_neg hlast, List.tail_cons]

/-- Names taken behind others that hold no `..`. -/
theorem normalNames_eq (h : ∀ n ∈ above, n ≠ dotDot) (hns : ∀ n ∈ ns, n ≠ dot) :
    normalNames true above ns = (retrace above ns.reverse).reverse := by
  induction ns generalizing above with
  | nil => rfl
  | cons name ns ih =>
      obtain ⟨hname, hns⟩ := List.forall_mem_cons.mp hns
      rw [List.reverse_cons, retrace_append, retrace, retrace]
      by_cases hdotDot : name = dotDot
      · rw [if_pos hdotDot]
        cases above with
        | nil =>
            rw [normalNames, if_neg hname, if_neg (by simpa using hdotDot), if_pos rfl]
            exact ih h hns
        | cons last above =>
            obtain ⟨hlast, habove⟩ := List.forall_mem_cons.mp h
            rw [normalNames, if_neg hname, if_neg (by simpa using hdotDot), if_neg hlast]
            exact ih habove hns
      · rw [if_neg hdotDot]
        have htaken : normalNames true above (name :: ns)
            = normalNames true (name :: above) ns := by
          cases above <;> rw [normalNames, if_neg hname, if_pos hdotDot]
        rw [htaken]
        exact ih (List.forall_mem_cons.mpr ⟨hdotDot, h⟩) hns

/-- A path with one slash in front. -/
theorem normal_cons {body : Text} (h : isAbsolute body = false) :
    normal (separator :: body) = pathOf (normalNames true [] (names body)) := by
  have hbody : body.takeWhile (· == separator) = [] := by
    cases body with
    | nil => rfl
    | cons c body => exact List.takeWhile_cons_of_neg (by simpa [isAbsolute] using h)
  have hslashes : (separator :: body).takeWhile (· == separator) = [separator] := by
    rw [List.takeWhile_cons_of_pos (by simp), hbody]
  simp only [normal, hslashes, names_separator_cons]
  rfl

/-- Names behind a path from the root. -/
theorem exists_joinPath_pathOf {front : List Name} (hfront : ∀ n ∈ front, IsName n)
    (hns : ∀ n ∈ ns, IsName n) :
    ∃ body, joinPath (pathOf front) (joined ns) = separator :: body
      ∧ isAbsolute body = false ∧ names body = front ++ ns := by
  have hback : isAbsolute (joined ns) = false := isAbsolute_joined hns
  cases front with
  | nil =>
      refine ⟨joined ns, ?_, hback, names_joined hns⟩
      unfold joinPath
      rw [hback]
      rfl
  | cons first front =>
      refine ⟨joined (first :: front) ++ separator :: joined ns, ?_, ?_, ?_⟩
      · obtain ⟨last, above, habove⟩ :=
          List.exists_cons_of_ne_nil (show (first :: front).reverse ≠ [] by simp)
        have hlast : IsName last := hfront last (by
          rw [← List.mem_reverse, habove]
          exact List.mem_cons_self)
        have hwritten : pathOf (first :: front) = written true (last :: above) := by
          rw [← habove, written, if_pos rfl, trailPath, List.reverse_reverse]
        have hend := getLast?_written_cons true hlast above
        rw [← hwritten] at hend
        unfold joinPath
        rw [hback, if_neg Bool.false_ne_true, if_neg (by simpa using ⟨List.cons_ne_nil _ _, hend⟩)]
        rfl
      · rw [← isAbsolute_joined hfront]
        have hne : joined (first :: front) ≠ [] := by
          intro hnil
          have hnames := names_joined hfront
          rw [hnil] at hnames
          cases hnames
        cases hjoined : joined (first :: front) with
        | nil => exact absurd hjoined hne
        | cons c rest => rfl
      · rw [names_append, names_joined hfront, names_joined hns]

/-- A text stands for the trail that its names leave. -/
theorem absolute_written {front : List Name} (hfront : ∀ n ∈ front, IsPlainName n)
    (h : ∀ n ∈ above, IsName n ∧ n ≠ dot) :
    absolute (.ok (pathOf front)) (written rooted above)
      = .ok (trailPath (retrace (if rooted then [] else front.reverse) above)) := by
  have hnames : ∀ n ∈ above.reverse, IsName n := fun n hn => (h n (List.mem_reverse.mp hn)).1
  have hdots : ∀ n ∈ above.reverse, n ≠ dot := fun n hn => (h n (List.mem_reverse.mp hn)).2
  have hempty : ∀ n ∈ ([] : List Name), n ≠ dotDot := fun _ hn => absurd hn List.not_mem_nil
  have hjoined : isAbsolute (joined above.reverse) = false := isAbsolute_joined hnames
  cases rooted with
  | true =>
      show Except.ok (normal (separator :: joined above.reverse)) = _
      rw [normal_cons hjoined, names_joined hnames, normalNames_eq hempty hdots,
        List.reverse_reverse]
      rfl
  | false =>
      obtain ⟨body, hbody, habsolute, hbodyNames⟩ : ∃ body,
          joinPath (pathOf front) (joined above.reverse) = separator :: body
            ∧ isAbsolute body = false ∧ names body = front ++ above.reverse :=
        exists_joinPath_pathOf (fun n hn => (hfront n hn).toIsName) hnames
      have hfrontDots : ∀ n ∈ front ++ above.reverse, n ≠ dot :=
        List.forall_mem_append.mpr ⟨fun n hn => (hfront n hn).ne_dot, hdots⟩
      have hplain : ∀ n ∈ front.reverse, n ≠ dotDot := fun n hn =>
        (hfront n (List.mem_reverse.mp hn)).ne_dotDot
      show (if isAbsolute (joined above.reverse) then _ else _) = _
      rw [hjoined, if_neg Bool.false_ne_true]
      show Except.ok (normal (joinPath (pathOf front) (joined above.reverse))) = _
      rw [hbody, normal_cons habsolute, hbodyNames, normalNames_eq hempty hfrontDots,
        List.reverse_append, List.reverse_reverse, retrace_append, retrace_of_plain hplain]
      rfl

end Lexical

end PathResolution
