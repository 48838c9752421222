/-
Replacing the function that makes paths canonical.

The function that resolves takes the place of the builtin one, and nobody can
tell: on the disk, as long as nothing fails on purpose and the builtin function
is not stopped by bounds of its own, both give the same path or the same failure
for every text (`realPath_patched`). Where a resolution succeeds, its path is the
builtin one, because the names of the path come to it and working on the text
comes to what the names come to. Where it does not, it fails with a resolution
error, and the builtin function is asked.
-/
import PathResolution.Proofs.Lexical.Simulation
import PathResolution.Proofs.Resolution.OnDisk
import PathResolution.Proofs.Resolution.Reporting
import PathResolution.Session

namespace PathResolution

-- ============================================================ the disk

namespace Disk

variable {s : Disk}

theorem objection?_isOrdinary {name : Name} {fault : Fault} (h : objection? name = some fault) :
    fault.IsOrdinary := by
  unfold objection? at h
  split at h
  · cases h
    trivial
  · split at h
    · cases h
      exact isOrdinary_system (by decide) _
    · cases h

section

variable {t : Tree} {d : DirId} {path : Text} {code : Errno}

/-- The numbers of lookups are the system's, so they fit. -/
theorem walkNames_fits {links : Nat} {start : Node} {ns : List Name}
    (h : walkNames t links start ns = .error code) : code.IsRepresentable := by
  fun_induction walkNames t links start ns with
  | case1 links node => cases h
  | case2 links d rest ih => exact ih h
  | case3 links d rest hdot ih => exact ih h
  | case4 links d name rest hdot hdotDot hlong => exact Except.error.inj h ▸ by decide
  | case5 links d name rest hdot hdotDot hlong hentry => exact Except.error.inj h ▸ by decide
  | case6 d name rest hdot hdotDot hlong target hentry => exact Except.error.inj h ▸ by decide
  | case7 d name rest hdot hdotDot hlong target hentry links ih => exact ih h
  | case8 links d name rest hdot hdotDot hlong node hentry hlink ih => exact ih h
  | case9 links node name rest hnode => exact Except.error.inj h ▸ by decide

theorem walk_fits (h : walk t d path = .error code) : code.IsRepresentable := by
  simp only [walk] at h
  split at h
  · exact Except.error.inj h ▸ by decide
  · cases hwalk : walkNames t maxLinks (.directory (Tree.walkStart d (kept path)))
        (namesToTake (kept path)) with
    | ok found =>
        rw [hwalk] at h
        cases h
    | error code' =>
        rw [hwalk] at h
        exact Except.error.inj h ▸ walkNames_fits hwalk

theorem locate_fits (h : locate t d path = .error code) : code.IsRepresentable := by
  unfold locate at h
  split at h
  · next hholder =>
    obtain rfl := Except.error.inj h
    simp only [holderWithin] at hholder
    split at hholder
    · refine Except.error.inj hholder ▸ ?_
      split <;> decide
    · split at hholder
      · next hwalk => exact Except.error.inj hholder ▸ walkNames_fits hwalk
      · cases hholder
      · exact Except.error.inj hholder ▸ by decide
  · split at h
    · exact Except.error.inj h ▸ by decide
    · cases h

theorem targetFrom_fits (h : targetFrom t d path = .error code) : code.IsRepresentable := by
  unfold targetFrom at h
  split at h
  · split at h
    · next hwalk => exact Except.error.inj h ▸ walk_fits hwalk
    · exact Except.error.inj h ▸ by decide
  · split at h
    · next hlocate => exact Except.error.inj h ▸ locate_fits hlocate
    · split at h
      · exact Except.error.inj h ▸ by decide
      · split at h
        · exact Except.error.inj h ▸ by decide
        · cases h
        · exact Except.error.inj h ▸ by decide

end

/-- A name that is looked up fails as its use does, or as the system objects. -/
theorem lookingUp_isOrdinary {α : Type} {base : Handle} {name : Name} {use : DirId → Except Fault α}
    (huse : ∀ d fault, use d = .error fault → fault.IsOrdinary) {fault : Fault}
    (h : s.lookingUp base name use = .error fault) : fault.IsOrdinary := by
  unfold lookingUp at h
  split at h
  · next hobjection => exact (objection?_isOrdinary hobjection).of_error h
  · split at h
    · exact huse _ fault h
    · split at h
      · exact huse _ fault h
      · exact (Tree.faultAt_isOrdinary (by decide) _).of_error h

/-- A disk reports errors of the system and refuses names, and nothing else. -/
theorem ordinaryFaults : OrdinaryFaults Disk.answer := by
  intro s question fault h
  cases question with
  | openRoot => cases h
  | openRelative base name =>
      simp only [Disk.answer, Disk.openRelative] at h
      split at h
      · exact (Tree.faultAt_isOrdinary (by decide) _).of_error h
      · split at h
        · next hlookup =>
          refine (lookingUp_isOrdinary (fun d fault huse => ?_) hlookup).of_error h
          unfold directoryAt at huse
          split at huse
          · next hwalk => exact (Tree.faultAt_isOrdinary (walk_fits hwalk) _).of_error huse
          · cases huse
          · exact (Tree.faultAt_isOrdinary (by decide) _).of_error huse
        · cases h
  | readLink base name =>
      refine lookingUp_isOrdinary (fun d fault huse => ?_) h
      split at huse
      · next htarget => exact (Tree.faultAt_isOrdinary (targetFrom_fits htarget) _).of_error huse
      · cases huse
  | close handle =>
      simp only [Disk.answer, Disk.closeHandle] at h
      split at h
      · have hbad : (Fault.system (some Errno.badHandle) none).IsOrdinary :=
          isOrdinary_system (by decide) none
        exact hbad.of_error h
      · cases h
  | workingDirectory =>
      simp only [Disk.answer, Disk.workingPath] at h
      split at h
      · cases h
      · have hgone : (Fault.system (some Errno.noEntry) none).IsOrdinary :=
          isOrdinary_system (by decide) none
        exact hgone.of_error h

/-- The canonical form of a text does not depend on what is open. -/
theorem lexicalPath_congr {after : Disk} (htree : after.tree = s.tree)
    (hw : after.workingDirectory = s.workingDirectory) (bounds : Lexical.Bounds) (nul : Refusal)
    (strict : Bool) (path : Text) :
    after.lexicalPath bounds nul strict path = s.lexicalPath bounds nul strict path := by
  obtain ⟨tree, handles, w⟩ := after
  obtain ⟨tree', handles', w'⟩ := s
  obtain rfl : tree = tree' := htree
  obtain rfl : w = w' := hw
  rfl

/-- A resolution leaves the disk as it was, except for handles, and its path is
the canonical form of the text. -/
theorem resolved_on_disk (hs : s.Reachable) {directory : Text}
    (hw : s.workingPath = .ok directory) {bounds : Lexical.Bounds} {nul : Refusal}
    (hsize : bounds.pathSize = none)
    (hnesting : ∀ n, bounds.nesting = some n → linkCount s.tree < n) (shown path : Text)
    (limits : Limits) :
    let ended := (canonicalPathShown shown limits .missingOk path).run Disk.answer s
    (∀ canonical, ended.value = .ok canonical →
        s.lexicalPath bounds nul false path = .ok canonical)
      ∧ ended.state.tree = s.tree ∧ ended.state.workingDirectory = s.workingDirectory := by
  intro ended
  have wf := hs.wellFormed
  obtain ⟨above, hpath, habove⟩ : ∃ above, pathTo? s.tree s.workingDirectory = some (pathOf above)
      ∧ s.tree.node? above = some (.directory s.workingDirectory) := by
    unfold workingPath at hw
    split at hw
    · next found hfound =>
      obtain ⟨above, rfl, habove⟩ := wf.tree.exists_of_pathTo? hfound
      exact ⟨above, hfound, habove⟩
    · cases hw
  obtain ⟨view, hcomes, hshows⟩ :=
    (canonicalPathShown_follows_disk wf.tree hpath habove shown limits .missingOk path).run
      (honours_disk s.tree s.workingDirectory) (shows_nothing wf.handles)
  refine ⟨fun canonical hvalue => ?_, hshows.tree, hshows.workingDirectory⟩
  obtain ⟨final, o, n, rfl, hnames⟩ := hcomes canonical hvalue
  have hworking : s.workingPath = .ok (pathOf above) := by
    unfold workingPath
    rw [hpath]
  exact lexicalPath_of_comes wf.tree hsize hnesting hworking habove hnames

end Disk

-- ============================================================ sessions

/-- Two sides that answer alike, as long as they are related, are related after a
run that ends alike. -/
theorem Dialogue.run_of_related {α σ τ : Type} {answer : Answering σ} {answer' : Answering τ}
    {related : σ → τ → Prop}
    (hstep : ∀ s s' question, related s s' → (answer question s).1 = (answer' question s').1
      ∧ related (answer question s).2 (answer' question s').2)
    (d : Dialogue α) {s : σ} {s' : τ} (h : related s s') :
    (d.run answer s).value = (d.run answer' s').value
      ∧ related (d.run answer s).state (d.run answer' s').state := by
  induction d generalizing s s' with
  | done value => exact ⟨rfl, h⟩
  | tell entry rest ih =>
      rw [run_tell, run_tell]
      exact ih h
  | ask question next ih =>
      obtain ⟨hreply, hafter⟩ := hstep s s' question h
      rw [run_ask, run_ask, hreply]
      exact ih _ hafter

namespace Session

variable {s : Session} {disk : Disk} {r : Resolver} {path : Text}

/-- The world is a disk, and no faults are planned. -/
def On (world : World) (disk : Disk) : Prop :=
  world.state = ⟨.disk disk, []⟩

/-- Such a world answers as the disk. -/
theorem answer_on (world : World) (disk : Disk) (question : Primitive) (h : On world disk) :
    (answer question world).1 = (Disk.answer question disk).1
      ∧ On (answer question world).2 (Disk.answer question disk).2 := by
  obtain ⟨state, calls⟩ := world
  obtain rfl : state = ⟨.disk disk, []⟩ := h
  exact ⟨rfl, rfl⟩

/-- What the builtin function gives on a disk. -/
theorem builtin_on (hs : On s.world disk) (path : Text) :
    s.builtin false (.string path)
      = match disk.lexicalPath s.bounds .embeddedNul false path with
        | .ok canonical => .ok (.text canonical)
        | .error fault => .error (.fault fault) := by
  have hdisk : s.filesystem.diskBeside = disk := by
    unfold filesystem
    rw [hs]
    rfl
  show builtinPath s.filesystem.diskBeside s.bounds false (.text path) = _
  rw [hdisk]
  rfl

theorem resolving_lenient (s : Session) (path : Value) :
    s.resolving false path = match s.absolutePath path (.truth false) with
      | (.error (.resolution _), after) => (after.builtin false path, after)
      | answered => answered := rfl

/-- The default resolver runs on the disk, and changes nothing else of the
session. -/
theorem absolutePath_run (hs : On s.world disk) (hdefault : s.defaultResolver = some r)
    (path : Text) :
    let resolved := s.absolutePath (.string path) (.truth false)
    let ended := (canonicalPathShown (quoted path) r.limits .missingOk path).run Disk.answer disk
    resolved.1 = ended.value.map .text ∧ On resolved.2.world ended.state
      ∧ resolved.2.bounds = s.bounds := by
  intro resolved ended
  obtain ⟨hvalue, hafter⟩ := Dialogue.run_of_related answer_on
    (canonicalPathShown (quoted path) r.limits .missingOk path) hs
  have hget : s.getDefault = (.ok r, s) := by
    unfold getDefault
    rw [hdefault]
  have hresolved : resolved = s.converse ((canonicalPathShown (quoted path) r.limits .missingOk
      path).bind fun answer => .done (answer.map .text)) := by
    show s.absolutePath (.string path) (.truth false) = _
    unfold absolutePath
    rw [hget]
    rfl
  rw [hresolved]
  simp only [converse, Dialogue.run_bind, Dialogue.run_done]
  exact ⟨congrArg _ hvalue, hafter, trivial⟩

/-- A resolution with the default resolver gives what the builtin function gives,
or fails with a resolution error; and afterwards the builtin function gives the
same as before. -/
theorem absolutePath_on (hs : On s.world disk) (hreachable : disk.Reachable) {directory : Text}
    (hworking : disk.workingPath = .ok directory) (hdefault : s.defaultResolver = some r)
    (hsize : s.bounds.pathSize = none)
    (hnesting : ∀ n, s.bounds.nesting = some n → Disk.linkCount disk.tree < n) (path : Text) :
    let resolved := s.absolutePath (.string path) (.truth false)
    (∀ canonical, resolved.1 = .ok canonical → s.builtin false (.string path) = .ok canonical)
      ∧ (∀ failure, resolved.1 = .error failure → ∃ e, failure = .resolution e)
      ∧ resolved.2.builtin false (.string path) = s.builtin false (.string path) := by
  intro resolved
  obtain ⟨hfirst, hworld, hbounds⟩ := absolutePath_run hs hdefault path
  obtain ⟨hlexical, htree, hdirectory⟩ :=
    Disk.resolved_on_disk hreachable hworking hsize hnesting (quoted path) path r.limits
  obtain ⟨-, hreports⟩ :=
    canonicalPathShown_reports Disk.ordinaryFaults disk (quoted path) r.limits .missingOk path
  have hafter : resolved.2.builtin false (.string path) = s.builtin false (.string path) := by
    rw [builtin_on hworld, builtin_on hs, hbounds, Disk.lexicalPath_congr htree hdirectory]
  cases hended : ((canonicalPathShown (quoted path) r.limits .missingOk path).run Disk.answer
      disk).value with
  | error failure =>
      rw [hended] at hfirst
      refine ⟨fun canonical h => ?_, fun failure' h => ?_, hafter⟩
      · rw [hfirst] at h
        cases h
      · rw [hfirst] at h
        injection h with h
        exact h ▸ hreports failure hended
  | ok found =>
      rw [hended] at hfirst
      refine ⟨fun canonical h => ?_, fun failure' h => ?_, hafter⟩
      · rw [hfirst] at h
        injection h with h
        rw [builtin_on hs, hlexical found hended, ← h]
      · rw [hfirst] at h
        cases h

end Session

/-- Beside the disk, nobody can tell which of the two functions is installed: the
one that resolves gives the same path as the builtin one, or the same failure. It
gives the path of the resolution if that succeeds, and else asks the builtin
one. -/
theorem realPath_patched (s : Session) (disk : Disk) (r : Resolver) (path : Text)
    (hdisk : s.filesystem = .disk disk) (hreachable : disk.Reachable)
    (hworking : ∃ directory, disk.workingPath = .ok directory)
    (hplans : s.world.state.planned = []) (hdefault : s.defaultResolver = some r)
    (hinstalled : s.installed = .builtin) (hsize : s.bounds.pathSize = none)
    (hnesting : ∀ n, s.bounds.nesting = some n → Disk.linkCount disk.tree < n) :
    let resolved := s.patch.2.absolutePath (.string path) (.truth false)
    (s.patch.2.realPath false (.string path)).1 = (s.realPath false (.string path)).1
      ∧ (∀ canonical, resolved.1 = .ok canonical →
          s.realPath false (.string path) = (.ok canonical, s))
      ∧ ∀ failure, resolved.1 = .error failure → (∃ e, failure = .resolution e)
          ∧ s.patch.2.realPath false (.string path)
            = (resolved.2.builtin false (.string path), resolved.2) := by
  intro resolved
  have hs : Session.On s.world disk := by
    show (⟨s.filesystem, s.world.state.planned⟩ : Injected Filesystem) = _
    rw [hdisk, hplans]
  obtain ⟨directory, hworking⟩ := hworking
  obtain ⟨hsucceeds, hfails, hafter⟩ :
      (∀ canonical, resolved.1 = .ok canonical →
          s.patch.2.builtin false (.string path) = .ok canonical)
        ∧ (∀ failure, resolved.1 = .error failure → ∃ e, failure = .resolution e)
        ∧ resolved.2.builtin false (.string path) = s.patch.2.builtin false (.string path) :=
    Session.absolutePath_on (s := s.patch.2) hs hreachable hworking hdefault hsize hnesting path
  have hbuiltin : s.realPath false (.string path)
      = (s.patch.2.builtin false (.string path), s) := by
    unfold Session.realPath
    rw [hinstalled]
    rfl
  have hpatched : s.patch.2.realPath false (.string path)
      = s.patch.2.resolving false (.string path) := rfl
  rw [hbuiltin, hpatched, Session.resolving_lenient]
  cases hresolved : s.patch.2.absolutePath (.string path) (.truth false) with
  | mk answered after =>
      have hpair : resolved = (answered, after) := hresolved
      rw [hpair] at hsucceeds hfails hafter ⊢
      cases answered with
      | ok canonical =>
          have hsame := hsucceeds canonical rfl
          refine ⟨hsame.symm, fun canonical' h => ?_, nofun⟩
          injection h with h
          rw [hsame, h]
      | error failure =>
          obtain ⟨e, rfl⟩ := hfails failure rfl
          refine ⟨hafter, nofun, fun failure' h => ?_⟩
          injection h with h
          exact ⟨⟨e, h.symm⟩, rfl⟩

namespace Disk

theorem makeLink_of_addLink {s : Disk} {target path : Text} {tree : Tree}
    (htarget : refusal? target = none) (hpath : refusal? path = none)
    (hempty : target.isEmpty = false) (hlong : (isTooLong target || isTooLong path) = false)
    (h : addLink s.tree s.workingDirectory target path = .ok tree) :
    s.makeLink target path = (.ok (), { s with tree }) := by
  simp only [Disk.makeLink, htarget, hpath, hempty, hlong, h, Bool.false_eq_true, if_false,
    Disk.succeed]

/-- A disk with a directory and a link to it. -/
def sample : Disk :=
  ⟨⟨[⟨0, [(text "d", .directory 1), (text "l", .link (text "d"))]⟩, ⟨0, []⟩]⟩, .empty, Tree.root⟩

theorem sample_reachable : sample.Reachable := by
  have hd : IsPlainName (text "d") := ⟨⟨by decide, by decide⟩, by decide, by decide⟩
  have hl : IsPlainName (text "l") := ⟨⟨by decide, by decide⟩, by decide, by decide⟩
  have hdBytes : Encodable (text "d") := exists_utf8_iff.mp ⟨[0x64], rfl⟩
  have hlBytes : Encodable (text "l") := exists_utf8_iff.mp ⟨[0x6C], rfl⟩
  let grown : Tree := ⟨[⟨0, [(text "d", .directory 1)]⟩, ⟨0, []⟩]⟩
  have hmade : makeOne .empty Tree.root (text "d") = .ok grown := by
    unfold makeOne
    rw [locate_of_plain hd hdBytes]
    rfl
  have hlast : makeLast Tree.root false false (text "d") .empty = (.ok (), grown) := by
    unfold makeLast
    rw [hmade]
    rfl
  have hdirectories : (Disk.makeDirectories ⟨.empty, .empty, Tree.root⟩ (text "d") false).2
      = ⟨grown, .empty, Tree.root⟩ := by
    show (⟨(makeLast Tree.root false false (text "d") .empty).2, .empty, Tree.root⟩ : Disk) = _
    rw [hlast]
  have hlink : addLink grown Tree.root (text "d") (text "l") = .ok sample.tree := by
    unfold addLink
    rw [locate_of_plain hl hlBytes]
    rfl
  have hsample : Disk.makeLink ⟨grown, .empty, Tree.root⟩ (text "d") (text "l")
      = (.ok (), sample) :=
    makeLink_of_addLink rfl rfl rfl rfl hlink
  have hreachable : (Disk.makeLink ⟨grown, .empty, Tree.root⟩ (text "d") (text "l")).2.Reachable :=
    hdirectories ▸ .makeLink _ _ (.makeDirectories _ _ .empty)
  rwa [hsample] at hreachable

end Disk

/-- Behind a link, the path is the same. -/
theorem realPath_patched_behind_link :
    let s := (Session.start (.disk .sample) .empty ⟨none, none⟩).setDefault ⟨0, .standard⟩
    (s.patch.2.realPath false (.string (text "l/x"))).1 = .ok (.text (text "/d/x")) := by
  intro s
  have hworking : ∃ directory, Disk.sample.workingPath = .ok directory := ⟨text "/", rfl⟩
  have hsame := (realPath_patched s .sample ⟨0, .standard⟩ (text "l/x") rfl Disk.sample_reachable
    hworking rfl rfl rfl rfl nofun).1
  have hl : Disk.Finds Disk.sample.tree 0 (text "l") (some (.link (text "d"))) :=
    ⟨⟨⟨by decide, by decide⟩, by decide, by decide⟩, rfl, rfl, rfl⟩
  have hd : Disk.Finds Disk.sample.tree 0 (text "d") (some (.directory 1)) :=
    ⟨⟨⟨by decide, by decide⟩, by decide, by decide⟩, rfl, rfl, rfl⟩
  have hx : Disk.Finds Disk.sample.tree 1 (text "x") none :=
    ⟨⟨⟨by decide, by decide⟩, by decide, by decide⟩, rfl, rfl, rfl⟩
  have hcomes : Disk.Comes Disk.sample.tree (names (text "l/x")) [] (some 0)
      [text "x", text "d"] none 3 :=
    .follow hl (.go (.enter hd) .nil) (.go (.stop hx (.inl rfl)) .nil)
  have hlexical : Disk.sample.lexicalPath ⟨none, none⟩ .embeddedNul false (text "l/x")
      = .ok (text "/d/x") :=
    lexicalPath_of_comes Disk.sample_reachable.wellFormed.tree rfl (fun _ h => by cases h) rfl rfl
      hcomes
  rw [hsame]
  show s.builtin false (.string (text "l/x")) = _
  have hs : Session.On s.world .sample := rfl
  have hbounds : s.bounds = ⟨none, none⟩ := rfl
  rw [Session.builtin_on hs, hbounds, hlexical]

end PathResolution
