/-
Handles over a whole history.

A history is noted together with its calls (`Store.noteAll`), so that it can be
said which handles were opened and which were given back. What holds between
the notes and the store is one invariant (`Numbered`): the handles were opened
in the order of their numbers, the next number follows on, and exactly those
that were not given back are open. Questions keep it, each in its own way, and
builders do not touch the handles.

A handle stands for a directory and not for what was in it: an open handle
stands for the same directory after any further history (`Denotes.noteAll`), the
tree only grows meanwhile, and what is seen through the handle is what the tree
has then under the names of the directory (`sees`).
-/
import PathResolution.Proofs.Building.Effects
import PathResolution.Proofs.Building.Histories
import PathResolution.Proofs.Resolution.TreeView

namespace PathResolution

-- ================================================================= notes

/-- The handle that a call gave back. -/
def Call.released? : Call → Option Handle
  | ⟨.close h, .ok _⟩ => some h
  | _ => none

/-- The handles that were opened, in order. The latest call stands first. -/
def openings (calls : List Call) : List Handle := calls.reverse.filterMap Call.opened?

/-- The handles that were given back, in order. -/
def closings (calls : List Call) : List Handle := calls.reverse.filterMap Call.released?

/-- What is read off the latest call comes last. -/
theorem filterMap_reverse_cons {β : Type} (f : Call → Option β) (call : Call)
    (calls : List Call) :
    (call :: calls).reverse.filterMap f = calls.reverse.filterMap f ++ (f call).toList := by
  rw [List.reverse_cons, List.filterMap_append]
  cases h : f call with
  | none => rw [List.filterMap_cons_none h]; rfl
  | some b => rw [List.filterMap_cons_some h]; rfl

theorem openings_cons (call : Call) (calls : List Call) :
    openings (call :: calls) = openings calls ++ call.opened?.toList :=
  filterMap_reverse_cons Call.opened? call calls

theorem closings_cons (call : Call) (calls : List Call) :
    closings (call :: calls) = closings calls ++ call.released?.toList :=
  filterMap_reverse_cons Call.released? call calls

theorem Call.released?_of_opened? {call : Call} {h : Handle} (ho : call.opened? = some h) :
    call.released? = none := by
  obtain ⟨question, reply⟩ := call
  cases question with
  | close other => cases ho
  | _ => rfl

/-- Taking notes changes no answer. -/
theorem Dialogue.run_recording_state {α σ : Type} {answer : Answering σ} (d : Dialogue α)
    (r : Recorded σ) :
    (d.run (recording answer) r).state.state = (d.run answer r.state).state := by
  induction d generalizing r with
  | done value => rfl
  | tell entry rest ih =>
      rw [run_tell, run_tell]
      exact ih r
  | ask question next ih =>
      rw [run_ask, run_ask]
      exact ih (answer question r.state).1 _

/-- A name that is not there opens nothing. -/
theorem Tree.opens_of_missing {t : Tree} {d : DirId} {name : Name} (hname : IsPlainName name)
    (h : t.entry? d name = none) : t.opens d name = .error (faultAt Errno.noEntry name) := by
  obtain ⟨atLink, hwalk⟩ := walk_of_isName hname.toIsName (t := t) (d := d)
  rw [opens, hwalk, walkNames, if_neg hname.ne_dot, if_neg hname.ne_dotDot, h]

namespace Store

open Dialogue (Recorded recording)

/-- An operation on a store whose calls are noted. -/
def note (r : Recorded Store) : Operation → Recorded Store
  | .build call => ⟨(r.state.build call).2, r.calls⟩
  | .changeDirectory path => ⟨{ r.state with workingDirectory := path }, r.calls⟩
  | .ask question => (recording answer question r).2
  | .resolve limits env path exact =>
    ((PathResolution.resolve limits env path exact).run (recording answer) r).state
  | .resolveOrNone limits env path exact =>
    ((PathResolution.resolveOrNone limits env path exact).run (recording answer) r).state

/-- A history on a store whose calls are noted. -/
def noteAll (r : Recorded Store) (operations : List Operation) : Recorded Store :=
  operations.foldl note r

variable {s : Store} {r : Recorded Store} {h : Handle} {d : DirId} {ns : List Name} {name : Name}

theorem note_state (r : Recorded Store) (operation : Operation) :
    (note r operation).state = r.state.perform operation := by
  cases operation with
  | build call => rfl
  | changeDirectory path => rfl
  | ask question => rfl
  | resolve limits env path exact => exact Dialogue.run_recording_state _ r
  | resolveOrNone limits env path exact => exact Dialogue.run_recording_state _ r

theorem noteAll_state (r : Recorded Store) (operations : List Operation) :
    (noteAll r operations).state = r.state.performAll operations := by
  induction operations generalizing r with
  | nil => rfl
  | cons operation operations ih =>
      show (noteAll (note r operation) operations).state = _
      rw [ih, note_state]
      rfl

/-- What every question and every builder keeps is kept by every history. -/
theorem noteAll_keeps {P : Recorded Store → Prop}
    (hask : ∀ question r, P r → P (recording answer question r).2)
    (hbuild : ∀ call r, P r → P ⟨(r.state.build call).2, r.calls⟩)
    (hchange : ∀ path r, P r → P ⟨{ r.state with workingDirectory := path }, r.calls⟩)
    (operations : List Operation) (hr : P r) : P (noteAll r operations) := by
  induction operations generalizing r with
  | nil => exact hr
  | cons operation operations ih =>
      refine ih ?_
      cases operation with
      | build call => exact hbuild call r hr
      | changeDirectory path => exact hchange path r hr
      | ask question => exact hask question r hr
      | resolve limits env path exact => exact Dialogue.run_keeps hask _ hr
      | resolveOrNone limits env path exact => exact Dialogue.run_keeps hask _ hr

-- =============================================================== numbers

/-- What the notes say about the handles of a store. -/
structure Numbered (r : Recorded Store) : Prop where
  wellFormed : r.state.handles.WellFormed
  inOrder : openings r.calls
    = (List.range (openings r.calls).length).map fun i : Nat => (3 : Handle) + i
  next_eq : r.state.handles.next = 3 + ((openings r.calls).length : Handle)
  isOpen_iff : ∀ h, (r.state.handles.directory? h).isSome
    ↔ h ∈ openings r.calls ∧ h ∉ closings r.calls
  closed : ∀ h ∈ closings r.calls, h ∈ openings r.calls
  size_add : r.state.handles.size + (closings r.calls).length = (openings r.calls).length

theorem Numbered.empty (workingDirectory : Text) : Numbered ⟨.empty workingDirectory, []⟩ where
  wellFormed := HandleTable.empty_wellFormed
  inOrder := rfl
  next_eq := rfl
  isOpen_iff := by
    intro h
    exact ⟨nofun, fun hmem => nomatch hmem.1⟩
  closed := nofun
  size_add := rfl

theorem Numbered.next_not_mem (hr : Numbered r) : r.state.handles.next ∉ openings r.calls := by
  intro hmem
  rw [hr.inOrder, hr.next_eq] at hmem
  obtain ⟨i, hi, heq⟩ := List.mem_map.mp hmem
  have hlt : i < (openings r.calls).length := List.mem_range.mp hi
  have hsame : (3 : Int) + i = 3 + (openings r.calls).length := heq
  omega

/-- An opening takes the next number. -/
theorem Numbered.opened (hr : Numbered r) {call : Call}
    (ho : call.opened? = some r.state.handles.next) (d : DirId) :
    Numbered ⟨{ r.state with handles := (r.state.handles.add d).2 }, call :: r.calls⟩ := by
  have hopenings : openings (call :: r.calls)
      = openings r.calls ++ [r.state.handles.next] := by rw [openings_cons, ho]; rfl
  have hclosings : closings (call :: r.calls) = closings r.calls := by
    rw [closings_cons, Call.released?_of_opened? ho]
    exact List.append_nil _
  have hlength : (openings (call :: r.calls)).length = (openings r.calls).length + 1 := by
    rw [hopenings, List.length_append]
    rfl
  refine ⟨hr.wellFormed.add d, ?_, ?_, fun h => ?_, fun h hh => ?_, ?_⟩
  · rw [hlength, List.range_succ, List.map_append, ← hr.inOrder, hopenings, hr.next_eq]
    rfl
  · show r.state.handles.next + 1 = _
    rw [hlength, hr.next_eq, Int.natCast_succ, Int.add_assoc]
  · rw [hopenings, hclosings, List.mem_append, List.mem_singleton]
    by_cases hnew : h = r.state.handles.next
    · rw [hnew, hr.wellFormed.directory?_add_next]
      exact ⟨fun _ => ⟨.inr rfl, fun hclosed => hr.next_not_mem (hr.closed _ hclosed)⟩,
        fun _ => rfl⟩
    · show ((r.state.handles.add d).2.directory? h).isSome ↔ _
      rw [HandleTable.directory?_add_of_ne d hnew, hr.isOpen_iff]
      exact and_congr_left fun _ => ⟨.inl, fun hmem => hmem.resolve_right hnew⟩
  · rw [hclosings] at hh
    rw [hopenings]
    exact List.mem_append_left _ (hr.closed h hh)
  · show (r.state.handles.opened ++ [_]).length + _ = _
    rw [List.length_append, hclosings, hlength, ← hr.size_add]
    show r.state.handles.size + 1 + _ = _
    omega

/-- A close that succeeds takes its handle off those that are open. -/
theorem Numbered.released (hr : Numbered r) {closed : HandleTable}
    (hc : r.state.handles.close? h = some closed) :
    Numbered ⟨{ r.state with handles := closed }, ⟨.close h, .ok ()⟩ :: r.calls⟩ := by
  have hopenings : openings (⟨.close h, .ok ()⟩ :: r.calls) = openings r.calls := by
    rw [openings_cons]
    exact List.append_nil _
  have hclosings : closings (⟨.close h, .ok ()⟩ :: r.calls) = closings r.calls ++ [h] :=
    closings_cons _ _
  have hopen : (r.state.handles.directory? h).isSome :=
    (HandleTable.close?_eq_some_iff.mp hc).1
  refine ⟨hr.wellFormed.close hc, ?_, ?_, fun other => ?_, fun other hother => ?_, ?_⟩
  · rw [hopenings]
    exact hr.inOrder
  · rw [hopenings]
    exact (HandleTable.next_closed hc).trans hr.next_eq
  · rw [hopenings, hclosings, List.mem_append, List.mem_singleton]
    by_cases hsame : other = h
    · rw [hsame]
      show (closed.directory? h).isSome ↔ _
      rw [HandleTable.directory?_closed hc]
      exact ⟨nofun, fun hboth => absurd (.inr rfl) hboth.2⟩
    · show (closed.directory? other).isSome ↔ _
      rw [HandleTable.directory?_close_of_ne hc hsame, hr.isOpen_iff, not_or]
      exact and_congr_right fun _ => ⟨fun hnot => ⟨hnot, hsame⟩, And.left⟩
  · rw [hclosings] at hother
    rw [hopenings]
    rcases List.mem_append.mp hother with hbefore | hnow
    · exact hr.closed other hbefore
    · rw [List.mem_singleton.mp hnow]
      exact ((hr.isOpen_iff h).mp hopen).1
  · show closed.size + _ = _
    have hmem : h ∈ r.state.handles.handles := HandleTable.mem_handles.mpr hopen
    have hpositive : 0 < r.state.handles.handles.card := Finset.card_pos.mpr ⟨h, hmem⟩
    rw [hopenings, ← hr.size_add, hclosings, List.length_append, (hr.wellFormed.close hc).size_eq,
      HandleTable.handles_close hc, Finset.card_erase_of_mem hmem, hr.wellFormed.size_eq,
      List.length_singleton]
    omega

/-- A call that neither opens nor gives back changes nothing. -/
theorem Numbered.otherwise (hr : Numbered r) {call : Call} (ho : call.opened? = none)
    (hc : call.released? = none) : Numbered ⟨r.state, call :: r.calls⟩ := by
  have hopenings : openings (call :: r.calls) = openings r.calls := by
    rw [openings_cons, ho]
    exact List.append_nil _
  have hclosings : closings (call :: r.calls) = closings r.calls := by
    rw [closings_cons, hc]
    exact List.append_nil _
  constructor
  · exact hr.wellFormed
  · rw [hopenings]
    exact hr.inOrder
  · rw [hopenings]
    exact hr.next_eq
  · rw [hopenings, hclosings]
    exact hr.isOpen_iff
  · rw [hopenings, hclosings]
    exact hr.closed
  · rw [hopenings, hclosings]
    exact hr.size_add

theorem Numbered.ask (hr : Numbered r) (question : Primitive) :
    Numbered (recording answer question r).2 := by
  show Numbered ⟨(answer question r.state).2, ⟨question, (answer question r.state).1⟩ :: r.calls⟩
  rcases Call.trichotomy ⟨question, (answer question r.state).1⟩ with
    ⟨h, ho, -⟩ | ⟨h, reply, heq⟩ | ⟨ho, hc, -⟩
  · obtain ⟨rfl, d, hstate⟩ := answer_of_opened ho
    rw [hstate]
    exact hr.opened ho d
  · obtain ⟨rfl, -⟩ := Call.mk.inj heq
    cases hclose : r.state.handles.close? h with
    | none =>
        rw [answer_close_of_none hclose]
        exact hr.otherwise rfl rfl
    | some closed =>
        rw [answer_close_of_some hclose]
        exact hr.released hclose
  · have hnoClose : ∀ h, question ≠ .close h := by
      rintro h rfl
      cases hc
    rw [answer_otherwise ho hnoClose]
    refine hr.otherwise ho ?_
    cases question with
    | close h => exact absurd rfl (hnoClose h)
    | _ => rfl

theorem Numbered.build (hr : Numbered r) (call : Building) :
    Numbered ⟨(r.state.build call).2, r.calls⟩ := by
  have hhandles := (build_frame r.state call).1
  constructor
  · rw [hhandles]
    exact hr.wellFormed
  · exact hr.inOrder
  · rw [hhandles]
    exact hr.next_eq
  · rw [hhandles]
    exact hr.isOpen_iff
  · exact hr.closed
  · rw [hhandles]
    exact hr.size_add

theorem Numbered.changeDirectory (hr : Numbered r) (path : Text) :
    Numbered ⟨{ r.state with workingDirectory := path }, r.calls⟩ :=
  ⟨hr.wellFormed, hr.inOrder, hr.next_eq, hr.isOpen_iff, hr.closed, hr.size_add⟩

theorem Numbered.noteAll (hr : Numbered r) (operations : List Operation) :
    Numbered (noteAll r operations) :=
  noteAll_keeps (fun question _ hr => hr.ask question) (fun call _ hr => hr.build call)
    (fun path _ hr => hr.changeDirectory path) operations hr

-- ========================================================== closed handles

/-- Through a handle that is not open nothing can be done. -/
theorem answer_of_not_open {base : Handle} (h : s.handles.directory? base = none) (name : Name) :
    answer (.openRelative base name) s = (.error badHandle, s)
      ∧ answer (.readLink base name) s = (.error badHandle, s)
      ∧ answer (.close base) s = (.error badHandle, s) := by
  refine ⟨?_, ?_, answer_close_of_none (HandleTable.close?_eq_none_iff.mpr h)⟩
  · show s.openRelative base name = _
    rw [openRelative, h]
  · show (s.readLink base name, s) = _
    rw [readLink, h]

-- ============================================================ open handles

/-- The directory that a question opens. -/
def opens? (s : Store) : Primitive → Option DirId
  | .openRoot => some Tree.root
  | .openRelative base name =>
    (s.handles.directory? base).bind fun d => (s.tree.opens d name).toOption
  | .readLink _ _ | .close _ | .workingDirectory => none

/-- A handle that was opened stands for the directory that was asked for. -/
theorem directory?_opened (hs : s.handles.WellFormed) {question : Primitive}
    (ho : Call.opened? ⟨question, (answer question s).1⟩ = some h) :
    ∃ d, s.opens? question = some d ∧ (answer question s).2.handles.directory? h = some d := by
  cases question with
  | openRoot =>
      injection ho with ho
      subst ho
      exact ⟨Tree.root, rfl, hs.directory?_add_next Tree.root⟩
  | openRelative base name =>
      have hanswer : answer (.openRelative base name) s = s.openRelative base name := rfl
      rw [hanswer] at ho ⊢
      cases hbase : s.handles.directory? base with
      | none =>
          rw [openRelative, hbase] at ho
          cases ho
      | some holder =>
          rw [openRelative_of_open hbase] at ho ⊢
          cases hopens : s.tree.opens holder name with
          | error fault =>
              rw [hopens] at ho
              cases ho
          | ok d =>
              rw [hopens] at ho
              injection ho with ho
              subst ho
              refine ⟨d, ?_, hs.directory?_add_next d⟩
              rw [opens?, hbase, Option.bind_some, hopens]
              rfl
  | readLink base name => cases ho
  | close other => cases ho
  | workingDirectory => cases ho

/-- Closed or the same: no question gives an open handle another directory. -/
theorem directory?_ask (hr : Numbered r) (hopen : r.state.handles.directory? h = some d)
    (question : Primitive) (hkept : h ∉ closings (recording answer question r).2.calls) :
    (answer question r.state).2.handles.directory? h = some d := by
  have hstays := (hr.ask question).isOpen_iff h
  rcases answer_cases question r.state with ⟨d', hstate⟩ | ⟨other, closed, hclose, hstate⟩ | hstate
  · rw [hstate]
    have hold : h ≠ r.state.handles.next :=
      fun heq => absurd (hr.wellFormed.lt_of_directory? hopen) (heq ▸ lt_irrefl _)
    exact (HandleTable.directory?_add_of_ne d' hold).trans hopen
  · have hother : h ≠ other := by
      rintro rfl
      have hmem : h ∈ openings (recording answer question r).2.calls := by
        show h ∈ openings (_ :: r.calls)
        rw [openings_cons]
        exact List.mem_append_left _ ((hr.isOpen_iff h).mp (by rw [hopen]; rfl)).1
      have hstill := hstays.mpr ⟨hmem, hkept⟩
      have hgone : (recording answer question r).2.state.handles.directory? h = none := by
        show (answer question r.state).2.handles.directory? h = none
        rw [hstate]
        exact HandleTable.directory?_closed hclose
      rw [hgone] at hstill
      cases hstill
    rw [hstate]
    exact (HandleTable.directory?_close_of_ne hclose hother).trans hopen
  · rw [hstate]
    exact hopen

/-- What a handle once stood for, as long as it was not given back, and where it is. -/
structure Denotes (h : Handle) (ns : List Name) (d : DirId) (r : Recorded Store) : Prop where
  numbered : Numbered r
  reachable : r.state.Reachable
  stands : h ∉ closings r.calls → r.state.handles.directory? h = some d
  found : r.state.tree.node? ns = some (.directory d)

theorem Denotes.ask (hr : Denotes h ns d r) (question : Primitive) :
    Denotes h ns d (recording answer question r).2 where
  numbered := hr.numbered.ask question
  reachable := hr.reachable.answer question
  stands := by
    intro hkept
    have hbefore : h ∉ closings r.calls := by
      intro hmem
      refine hkept ?_
      show h ∈ closings (_ :: r.calls)
      rw [closings_cons]
      exact List.mem_append_left _ hmem
    exact directory?_ask hr.numbered (hr.stands hbefore) question hkept
  found := by
    show (answer question r.state).2.tree.node? ns = _
    rw [(answer_frame question r.state).1]
    exact hr.found

theorem Denotes.build (hr : Denotes h ns d r) (call : Building) :
    Denotes h ns d ⟨(r.state.build call).2, r.calls⟩ where
  numbered := hr.numbered.build call
  reachable := hr.reachable.build call
  stands := by
    show _ → (r.state.build call).2.handles.directory? h = some d
    rw [(build_frame r.state call).1]
    exact hr.stands
  found := (hr.reachable.wellFormed.build_grows call).node?_eq hr.found

theorem Denotes.noteAll (hr : Denotes h ns d r) (operations : List Operation) :
    Denotes h ns d (noteAll r operations) :=
  noteAll_keeps (fun question _ hr => hr.ask question) (fun call _ hr => hr.build call)
    (fun path _ hr => ⟨hr.numbered.changeDirectory path, hr.reachable.changeDirectory path,
      hr.stands, hr.found⟩) operations hr

/-- What an open handle tells of a name when this, or nothing, stands under it in
the directory. -/
def Sees (s : Store) (h : Handle) (name : Name) : Option Node → Prop
  | none =>
    answer (.openRelative h name) s = (.error (Tree.faultAt Errno.noEntry name), s)
      ∧ answer (.readLink h name) s = (.error (Tree.faultAt Errno.noEntry name), s)
  | some (.directory c) =>
    answer (.openRelative h name) s = (.ok s.handles.next, (s.openDirectory c).2)
      ∧ answer (.readLink h name) s = (.error (Tree.faultAt Errno.invalidArgument name), s)
  | some .file =>
    answer (.openRelative h name) s = (.error (Tree.faultAt Errno.notADirectory name), s)
      ∧ answer (.readLink h name) s = (.error (Tree.faultAt Errno.invalidArgument name), s)
  | some (.link target) => answer (.readLink h name) s = (.ok target, s)

/-- An open handle tells of the tree as it is now. -/
theorem sees (hs : s.WellFormed) (hopen : s.handles.directory? h = some d)
    (hfound : s.tree.node? ns = some (.directory d)) (hname : IsPlainName name) :
    s.Sees h name (s.tree.node? (ns ++ [name])) := by
  have hopens : answer (.openRelative h name) s = _ := openRelative_of_open hopen name
  have htarget : answer (.readLink h name) s = (s.tree.target d name, s) :=
    congrArg (·, s) (readLink_of_open hopen name)
  have hdot := hname.ne_dot
  have hdotDot := hname.ne_dotDot
  rw [Tree.node?_concat hfound]
  cases hentry : s.tree.entry? d name with
  | none =>
      rw [Tree.opens_of_missing hname hentry] at hopens
      rw [Tree.target_of_missing hdot hdotDot hentry] at htarget
      exact ⟨hopens, htarget⟩
  | some node =>
      cases node with
      | directory c =>
          rw [hs.tree.opens_of_directory hdot hdotDot hentry] at hopens
          rw [Tree.target_of_entry hdot hdotDot hentry nofun] at htarget
          exact ⟨hopens, htarget⟩
      | file =>
          rw [hs.tree.opens_of_file hdot hdotDot hentry] at hopens
          rw [Tree.target_of_entry hdot hdotDot hentry nofun] at htarget
          exact ⟨hopens, htarget⟩
      | link target =>
          rw [Tree.target_of_link hdot hdotDot hentry] at htarget
          exact htarget

/-- What stands anew where a builder made something. -/
theorem exists_node_of_made {call : Building} (hs : s.WellFormed)
    (hplain : HasPlainNames call.path) (hok : (s.build call).1 = .ok ())
    (hfree : s.tree.node? (names call.path) = none) :
    ∃ node, (s.build call).2.tree.node? (names call.path) = some node ∧ node.kind = call.kind := by
  have hnone : s.tree.literal (names call.path) = none := by
    rw [Tree.literal, hfree]
    rfl
  have hmade : (s.build call).2.tree.literal (names call.path) = some call.kind := by
    rw [build_eq] at hok ⊢
    show (call.built s.tree).2.literal _ = _
    rw [Building.literal_built hs.tree hplain hok]
    cases hcall : call.makesParents with
    | false =>
        rw [Lookup.after_of_one hcall ((Building.built_eq_ok_iff hplain).mp hok),
          if_pos ⟨hnone, rfl⟩]
    | true =>
        have hnames : names call.path ≠ [] := by
          intro hnil
          rw [hnil] at hfree
          cases hfree
        rw [Lookup.after_of_makesParents hcall, if_pos ⟨hnone, hnames, List.prefix_refl _⟩]
        cases call with
        | makeDirectory path parents mayExist => rfl
        | makeFile path => cases hcall
        | makeLink target path => cases hcall
  exact Option.map_eq_some_iff.mp hmade

/-- An open handle stands for a directory, and what is there is seen through it,
what a builder makes next among it. Only `.` and `..` say nothing of what is there. -/
structure Lives (s : Store) (h : Handle) (ns : List Name) (d : DirId) : Prop where
  stands : s.handles.directory? h = some d
  found : s.tree.node? ns = some (.directory d)
  opens_dot : answer (.openRelative h dot) s = (.ok s.handles.next, (s.openDirectory d).2)
  opens_dotDot : answer (.openRelative h dotDot) s
    = (.ok s.handles.next, (s.openDirectory (s.tree.parent d)).2)
  sees : ∀ name, IsPlainName name → s.Sees h name (s.tree.node? (ns ++ [name]))
  sees_made : ∀ call name, (s.build call).1 = .ok () → names call.path = ns ++ [name] →
    IsPlainName name → s.tree.node? (ns ++ [name]) = none →
    ∃ node, (s.build call).2.Sees h name (some node) ∧ node.kind = call.kind

theorem Denotes.lives (hr : Denotes h ns d r) (hns : ArePlain ns)
    (hkept : h ∉ closings r.calls) : r.state.Lives h ns d where
  stands := hr.stands hkept
  found := hr.found
  opens_dot := by
    have hopens : answer (.openRelative h dot) r.state = _ :=
      openRelative_of_open (hr.stands hkept) dot
    rwa [Tree.opens_dot] at hopens
  opens_dotDot := by
    have hopens : answer (.openRelative h dotDot) r.state = _ :=
      openRelative_of_open (hr.stands hkept) dotDot
    rwa [Tree.opens_dotDot] at hopens
  sees name hname := Store.sees hr.reachable.wellFormed (hr.stands hkept) hr.found hname
  sees_made := by
    intro call name hok hpath hname hfree
    have hplain : HasPlainNames call.path := by
      show ArePlain (names call.path)
      rw [hpath]
      exact arePlain_concat_iff.mpr ⟨hns, hname.ne_dot, hname.ne_dotDot⟩
    have hr' := hr.build call
    rw [← hpath] at hfree
    obtain ⟨node, hnode, hkind⟩ := exists_node_of_made hr.reachable.wellFormed hplain hok hfree
    have hsees := Store.sees hr'.reachable.wellFormed (hr'.stands hkept) hr'.found hname
    rw [← hpath, hnode] at hsees
    exact ⟨node, hsees, hkind⟩

end Store

/-- After every history: the handles that were opened were numbered 3, 4, 5 and
so on, and as many are open as were opened and not given back. Through a handle
that was never opened, or was given back, nothing can be done. An opening gives a
handle of the directory that was asked for, and an open handle stands for that
directory whatever is done later, until it is given back. What is added to the
directory meanwhile is seen through it, unless it is called `.` or `..`. -/
theorem handles_numbered_and_live (workingDirectory : Text) (operations : List Store.Operation) :
    let r := Store.noteAll ⟨.empty workingDirectory, []⟩ operations
    openings r.calls = (List.range (openings r.calls).length).map (fun i : Nat => (3 : Handle) + i)
      ∧ r.state.handles.size + (closings r.calls).length = (openings r.calls).length
      ∧ (∀ h, h ∉ openings r.calls ∨ h ∈ closings r.calls → ∀ name,
          Store.answer (.openRelative h name) r.state = (.error Store.badHandle, r.state)
            ∧ Store.answer (.readLink h name) r.state = (.error Store.badHandle, r.state)
            ∧ Store.answer (.close h) r.state = (.error Store.badHandle, r.state))
      ∧ (∀ question h, Call.opened? ⟨question, (Store.answer question r.state).1⟩ = some h →
          ∃ d, r.state.opens? question = some d
            ∧ (Store.answer question r.state).2.handles.directory? h = some d)
      ∧ ∀ h ∈ openings r.calls, h ∉ closings r.calls → ∃ d ns,
          r.state.handles.directory? h = some d
            ∧ ∀ later, h ∉ closings (Store.noteAll r later).calls →
              (Store.noteAll r later).state.Lives h ns d := by
  intro r
  have hr : Store.Numbered r := (Store.Numbered.empty workingDirectory).noteAll operations
  have hreachable : r.state.Reachable := by
    rw [Store.noteAll_state]
    exact (Store.Reachable.empty workingDirectory).performAll operations
  refine ⟨hr.inOrder, hr.size_add, fun h hgone name => ?_,
    fun question h ho => Store.directory?_opened hr.wellFormed ho, fun h hopened hkept => ?_⟩
  · refine Store.answer_of_not_open (Option.not_isSome_iff_eq_none.mp fun hopen => ?_) name
    obtain ⟨hopened, hkept⟩ := (hr.isOpen_iff h).mp hopen
    exact hgone.elim (· hopened) hkept
  · obtain ⟨d, hopen⟩ := Option.isSome_iff_exists.mp ((hr.isOpen_iff h).mpr ⟨hopened, hkept⟩)
    obtain ⟨trail, ⟨htrail⟩, hplain⟩ := hreachable.handlesStand.visible hopen
    have hfound : r.state.tree.node? trail.reverse = some (.directory d) := by
      rw [← Tree.spelled_reverse, List.reverse_reverse]
      exact htrail
    have hns : ArePlain trail.reverse :=
      arePlain_of_isPlainName fun n hn => hplain n (List.mem_reverse.mp hn)
    have hdenotes : Store.Denotes h trail.reverse d r := ⟨hr, hreachable, fun _ => hopen, hfound⟩
    exact ⟨d, trail.reverse, hopen, fun later => (hdenotes.noteAll later).lives hns⟩

/-- A directory called `..` is added to one that is open, and it is not seen there:
the name opens the directory above, which has nothing of what it holds. -/
theorem directory_named_dotDot_not_seen :
    let r := Store.noteAll ⟨.empty (text "/"), []⟩
      [.build (.makeDirectory (text "/a") false false), .ask .openRoot,
        .ask (.openRelative 3 (text "a"))]
    let call : Store.Building := .makeDirectory (text "/a/../b") true false
    let s := (r.state.build call).2
    let opened := Store.answer (.openRelative 4 dotDot) s
    openings r.calls = [3, 4] ∧ closings r.calls = [] ∧ (r.state.build call).1 = .ok ()
      ∧ r.state.tree.entry? 1 dotDot = none ∧ s.handles.directory? 4 = some 1
      ∧ s.tree.Lists 1 dotDot (.directory 2) ∧ s.tree.Lists 2 (text "b") (.directory 3)
      ∧ ¬ s.Sees 4 dotDot (some (.directory 2))
      ∧ opened.1 = .ok 5 ∧ opened.2.handles.directory? 5 = some Tree.root
      ∧ Store.answer (.openRelative 5 (text "b")) opened.2
        = (.error (Tree.faultAt Errno.noEntry (text "b")), opened.2) := by
  intro r call s opened
  have hroot : opened.2.handles.directory? 5 = some Tree.root := rfl
  refine ⟨rfl, rfl, rfl, rfl, rfl, ⟨_, rfl, List.mem_cons_self⟩, ⟨_, rfl, List.mem_cons_self⟩,
    fun hsees => ?_, rfl, hroot, rfl⟩
  have hopened : opened.2.handles.directory? 5 = some 2 := by
    show (Store.answer (.openRelative 4 dotDot) s).2.handles.directory? 5 = _
    rw [hsees.1]
    rfl
  exact absurd (hroot.symm.trans hopened) (by decide)

/-- An opening that fails takes no number, and a number that was given back is not
given out again. -/
example :
    openings (Store.noteAll ⟨.empty (text "/"), []⟩
      [.ask .openRoot, .ask (.openRelative 3 (text "x")), .ask (.close 3), .ask .openRoot]).calls
      = [3, 4] := rfl

end PathResolution
