/-
What a resolution fails with.

A filesystem that reports errors of the system and refuses values, and does
nothing worse (`Fault.IsOrdinary`), is translated wherever it is asked: the
working directory, the root, each move, each link and the close at the end.
So a path that is given as text has an answer or a resolution error.

For bytes that leaves the way back from text to bytes, which nobody translates.
The names of the path were read from bytes, and a target without bytes is not
followed, so all names have bytes unless those of the working directory do not
(`visitNames_reports`). A working directory without bytes is the one thing that
escapes (`resolve_ends`), and it does escape
(`unencodable_workingDirectory_escapes`).
-/
import PathResolution.Proofs.Reachable
import PathResolution.Proofs.Resolution.Spelling
import PathResolution.Proofs.Text.Encoding

namespace PathResolution

-- ======================================================= ordinary faults

/-- Errors of the system, by a number that fits or by name, and values that are
refused. -/
def Fault.IsOrdinary : Fault → Prop
  | .system code _ => ∀ n ∈ code, n.IsRepresentable
  | .resolution code _ => code.IsRepresentable
  | .unnumbered _ | .refused _ => True
  | .interrupted _ | .nestedTooDeeply | .foreign _ _ => False

theorem isOrdinary_system {code : Errno} (hfits : code.IsRepresentable)
    (filename : Option Filename) : (Fault.system (some code) filename).IsOrdinary :=
  fun _ hn => Option.some.inj hn ▸ hfits

/-- A failure that ends as a resolution error, whatever the path. -/
def Failure.IsReported (failure : Failure) : Prop :=
  ∀ path, ∃ e, failure.reportedAt path = .resolution e

/-- A number that is reported for want of a better one fits as well. -/
theorem reportedCode_representable {code : Option Errno} (h : ∀ n ∈ code, n.IsRepresentable) :
    (reportedCode code).IsRepresentable := by
  unfold reportedCode
  split
  · next n =>
    split
    · decide
    · exact h n rfl
  · decide

theorem Fault.IsOrdinary.failureAt {fault : Fault} (h : fault.IsOrdinary) (path : Text) :
    ∃ e, fault.failureAt path = .resolution e := by
  cases fault with
  | system code filename => exact ⟨_, Failure.ofCode_eq (reportedCode_representable h) _ _⟩
  | unnumbered family => exact ⟨_, rfl⟩
  | resolution code filename => exact ⟨_, rfl⟩
  | refused why => exact ⟨_, rfl⟩
  | interrupted why => exact h.elim
  | nestedTooDeeply => exact h.elim
  | foreign name message => exact h.elim

/-- The number that an ordinary fault reports, if it has one, fits. -/
theorem Fault.IsOrdinary.report? {fault : Fault} (h : fault.IsOrdinary) {code : Option Errno}
    (hreport : fault.report? = some code) : ∀ n ∈ code, n.IsRepresentable := by
  cases fault with
  | system known filename => exact Option.some.inj hreport ▸ h
  | unnumbered family => exact Option.some.inj hreport ▸ nofun
  | resolution known filename => exact Option.some.inj hreport ▸ fun n hn => Option.some.inj hn ▸ h
  | refused why => cases hreport
  | interrupted why => cases hreport
  | nestedTooDeeply => cases hreport
  | foreign name message => cases hreport

/-- A fault that is left alone on the way is translated at the end. -/
theorem Fault.IsOrdinary.isReported {fault : Fault} (h : fault.IsOrdinary) :
    (Failure.fault fault).IsReported := fun path => h.failureAt path

theorem isReported_resolution (e : ResolutionError) : (Failure.resolution e).IsReported :=
  fun _ => ⟨e, rfl⟩

/-- A fault that was translated on the way stays as it is. -/
theorem Fault.IsOrdinary.isReported_failureAt {fault : Fault} (h : fault.IsOrdinary)
    (path : Text) : (fault.failureAt path).IsReported := by
  obtain ⟨e, he⟩ := h.failureAt path
  rw [he]
  exact isReported_resolution e

theorem Fault.IsOrdinary.of_error {α : Type} {fault fault' : Fault} (h : fault.IsOrdinary)
    (heq : (.error fault : Except Fault α) = .error fault') : fault'.IsOrdinary := by
  injection heq with heq
  exact heq ▸ h

/-- All questions are in order, and all faults are ordinary. -/
def Protocol.ordinary : Protocol Unit :=
  ⟨fun _ _ => True, fun _ _ reply => ∀ fault, reply = .error fault → fault.IsOrdinary,
    fun _ _ _ => ()⟩

-- ================================================================ moves

namespace Cursor

/-- An operation of a cursor that fails, if it does, with an ordinary fault. -/
abbrev Reports {α : Type} (d : Dialogue (Answer α)) : Prop :=
  d.Follows Protocol.ordinary (fun a _ => ∀ fault, a.1 = .error fault → fault.IsOrdinary) ()

variable {c : Cursor} {name : Name}

theorem replace_reports (new : Option Handle) : Reports (c.replace new) := by
  unfold replace
  split
  · exact nofun
  · exact ⟨trivial, fun reply hreply => hreply⟩

theorem land_reports {entry : LogEntry} {reply : Except Fault Handle}
    (h : ∀ fault, reply = .error fault → fault.IsOrdinary) : Reports (c.land entry reply) := by
  cases reply with
  | error fault => exact fun _ => (h fault rfl).of_error
  | ok new =>
      refine (replace_reports (some new)).bind fun a _ ha => ?_
      obtain ⟨outcome, moved⟩ := a
      cases outcome with
      | ok _ => exact nofun
      | error fault => exact fun _ => (ha fault rfl).of_error

/-- A cursor that is closed refuses, which is ordinary too. -/
theorem withHandle_reports {α : Type} {use : Handle → Dialogue (Answer α)}
    (h : ∀ base, Reports (use base)) : Reports (c.withHandle use) := by
  obtain ⟨handle?⟩ := c
  cases handle? with
  | some base => exact h base
  | none =>
      have hrefused : (Fault.refused .cursorNotOpen).IsOrdinary := trivial
      exact fun _ => hrefused.of_error

theorem enter_reports : Reports c.enter := by
  refine ⟨trivial, fun reply hreply => ?_⟩
  cases reply with
  | ok root => exact nofun
  | error fault => exact fun _ => (hreply fault rfl).of_error

theorem readLink_reports : Reports (c.readLink name) :=
  withHandle_reports fun _ => ⟨trivial, fun _ hreply => hreply⟩

theorem descend_reports : Reports (c.descend name) :=
  withHandle_reports fun _ => ⟨trivial, fun _ hreply => land_reports hreply⟩

theorem ascend_reports : Reports c.ascend :=
  withHandle_reports fun _ => ⟨trivial, fun _ hreply => land_reports hreply⟩

theorem reset_reports : Reports c.reset := ⟨trivial, fun _ hreply => land_reports hreply⟩

end Cursor

-- ================================================================ names

/-- What taking names leaves behind: names of which `P` holds, or a failure that
is reported. -/
def Progress.Reports (P : Name → Prop) : Progress → Prop
  | .onward v => (∀ n ∈ v.pending, P n) ∧ ∀ n ∈ v.trail, P n
  | .arrived trail _ => ∀ n ∈ trail, P n
  | .stuck failure _ => failure.IsReported

section

variable {P : Name → Prop} {mode : ExistenceMode} {maxLinkSize : Nat} {v : Visit}
  {pending trail : List Name} {name : Name}

theorem afterMove_reports {path : Text} {a : Cursor.Answer Unit}
    (ha : ∀ fault, a.1 = .error fault → fault.IsOrdinary) (hpending : ∀ n ∈ pending, P n)
    (htrail : ∀ n ∈ trail, P n) :
    (afterMove path trail pending a).Follows Protocol.ordinary
      (fun progress _ => progress.Reports P) () := by
  obtain ⟨outcome, cursor⟩ := a
  cases outcome with
  | ok _ => exact ⟨hpending, htrail⟩
  | error fault => exact (ha fault rfl).isReported_failureAt path

theorem commit_reports (hname : P name) (hpending : ∀ n ∈ v.pending, P n)
    (htrail : ∀ n ∈ v.trail, P n) :
    (commit name v).Follows Protocol.ordinary (fun progress _ => progress.Reports P) () := by
  have htrail' : ∀ n ∈ name :: v.trail, P n := List.forall_mem_cons.mpr ⟨hname, htrail⟩
  unfold commit
  split
  · exact ⟨hpending, htrail'⟩
  · exact Cursor.descend_reports.bind fun a _ ha => afterMove_reports ha hpending htrail'

/-- A target that is followed has bytes. -/
theorem followLink_reports (hnames : ∀ target, Encodable target → ∀ n ∈ names target, P n)
    (target : Text) (hpending : ∀ n ∈ v.pending, P n) (htrail : ∀ n ∈ v.trail, P n) :
    (followLink maxLinkSize name target v).Follows Protocol.ordinary
      (fun progress _ => progress.Reports P) () := by
  unfold followLink
  split
  · exact isReported_resolution _
  · split
    · exact Fault.IsOrdinary.isReported trivial
    · next bytes hbytes =>
      split
      · exact isReported_resolution _
      · have hpending' : ∀ n ∈ (prependPath target v.pending).1, P n := by
          intro n hn
          rcases List.mem_append.mp hn with hn | hn
          · exact hnames target (exists_utf8_iff.mp ⟨bytes, hbytes⟩) n hn
          · exact hpending n hn
        show Dialogue.Follows _ _ _ ()
        split
        · exact Cursor.reset_reports.bind fun a _ ha => afterMove_reports ha hpending' nofun
        · exact ⟨hpending', htrail⟩

theorem afterUnreadable_reports (hname : P name) (hpending : ∀ n ∈ v.pending, P n)
    (htrail : ∀ n ∈ v.trail, P n) {fault : Fault} (hfault : fault.IsOrdinary) :
    (afterUnreadable mode name v fault).Follows Protocol.ordinary
      (fun progress _ => progress.Reports P) () := by
  unfold afterUnreadable
  split
  · exact hfault.isReported
  · split
    · exact commit_reports hname hpending htrail
    · split
      · exact List.forall_mem_cons.mpr ⟨hname, htrail⟩
      · next code hreport _ _ =>
        have hfits := reportedCode_representable (hfault.report? hreport)
        show Failure.IsReported (.ofCode (reportedCode code) _ _)
        rw [Failure.ofCode_eq hfits]
        exact isReported_resolution _

theorem takeName_reports (hnames : ∀ target, Encodable target → ∀ n ∈ names target, P n)
    (hname : P name) (hpending : ∀ n ∈ v.pending, P n) (htrail : ∀ n ∈ v.trail, P n) :
    (takeName mode maxLinkSize name v).Follows Protocol.ordinary
      (fun progress _ => progress.Reports P) () := by
  unfold takeName
  split
  · exact ⟨hpending, htrail⟩
  · split
    · have htail : ∀ n ∈ v.trail.tail, P n := fun n hn => htrail n (List.mem_of_mem_tail hn)
      exact Cursor.ascend_reports.bind fun a _ ha => afterMove_reports ha hpending htail
    · refine Cursor.readLink_reports.bind fun a _ ha => ?_
      obtain ⟨outcome, cursor⟩ := a
      have hpending' : ∀ n ∈ ({ v with cursor } : Visit).pending, P n := hpending
      cases outcome with
      | ok target => exact followLink_reports hnames target hpending' htrail
      | error fault => exact afterUnreadable_reports hname hpending' htrail (ha fault rfl)

-- ================================================================== loop

/-- What names come to: an answer of which `Q` holds, or a failure that is
reported. -/
def AnswersOrReports {α : Type} (Q : α → Prop) : Except Failure α → Prop
  | .ok answer => Q answer
  | .error failure => failure.IsReported

theorem takeNames_reports (hnames : ∀ target, Encodable target → ∀ n ∈ names target, P n) :
    ∀ (budget : Nat) (v : Visit), (∀ n ∈ v.pending, P n) → (∀ n ∈ v.trail, P n) →
      (takeNames mode maxLinkSize budget v).Follows Protocol.ordinary
        (fun a _ => AnswersOrReports (fun trail => ∀ n ∈ trail, P n) a.1) () := by
  intro budget
  induction budget with
  | zero =>
      intro ⟨pending, trail, cursor⟩ hpending htrail
      cases pending with
      | nil => exact htrail
      | cons name pending => exact isReported_resolution _
  | succ budget ih =>
      intro ⟨pending, trail, cursor⟩ hpending htrail
      cases pending with
      | nil => exact htrail
      | cons name pending =>
          have hname : P name := hpending name List.mem_cons_self
          have hpending' : ∀ n ∈ (⟨pending, trail, cursor⟩ : Visit).pending, P n := fun n hn =>
            hpending n (List.mem_cons_of_mem name hn)
          refine (takeName_reports hnames hname hpending' htrail).bind fun progress _ h => ?_
          cases progress with
          | onward v => exact ih v h.1 h.2
          | arrived trail cursor => exact h
          | stuck failure cursor => exact h

/-- Names of which `P` holds come to a path of such names, or to a failure that
is reported. -/
theorem visitNames_reports (hnames : ∀ target, Encodable target → ∀ n ∈ names target, P n)
    (limits : Limits) (mode : ExistenceMode) (hpending : ∀ n ∈ pending, P n) :
    (visitNames mode limits pending).Follows Protocol.ordinary
      (fun a _ => AnswersOrReports (fun canonical =>
        ∃ trail, canonical = trailPath trail ∧ ∀ n ∈ trail, P n) a) () := by
  unfold visitNames
  refine Cursor.enter_reports.bind fun a _ ha => ?_
  obtain ⟨entered, cursor⟩ := a
  cases entered with
  | error fault => exact (ha fault rfl).isReported
  | ok _ =>
      have htrail : ∀ n ∈ ([] : List Name), P n := fun _ hn => absurd hn List.not_mem_nil
      refine (takeNames_reports hnames _ ⟨pending, [], cursor⟩ hpending htrail).bind
        fun b _ hb => ?_
      obtain ⟨answer, cursor⟩ := b
      refine (Cursor.replace_reports none).bind fun c _ hc => ?_
      obtain ⟨closed, _⟩ := c
      cases closed with
      | error fault => exact (hc fault rfl).isReported
      | ok _ =>
          cases answer with
          | error failure => exact hb
          | ok trail => exact ⟨trail, rfl, hb⟩

end

-- ============================================================ whole paths

section

variable {σ : Type} {answer : Dialogue.Answering σ}

/-- A filesystem whose faults are all ordinary. -/
def OrdinaryFaults (answer : Dialogue.Answering σ) : Prop :=
  ∀ s question fault, (answer question s).1 = .error fault → fault.IsOrdinary

theorem OrdinaryFaults.honoured (h : OrdinaryFaults answer) :
    Protocol.ordinary.Honoured answer fun _ _ => True :=
  fun s _ question _ _ => ⟨h s question, trivial⟩

/-- The names that a resolution of the path may start with have bytes. -/
def StartsEncodable (answer : Dialogue.Answering σ) (s : σ) (path : Text) : Prop :=
  Encodable path ∧ (isAbsolute path = false →
    ∀ directory, (answer .workingDirectory s).1 = .ok directory → Encodable directory)

theorem encodable_of_mem_startingNames {path directory : Text} (hpath : Encodable path)
    (hdirectory : Encodable directory) {n : Name} (hn : n ∈ startingNames path directory) :
    Encodable n := by
  rcases List.mem_append.mp hn with hn | hn
  · exact hdirectory.of_mem_names hn
  · rcases List.mem_append.mp hn with hn | hn
    · exact hpath.of_mem_names hn
    · cases hn

/-- A failure that is reported is a resolution error once it is reported at a
path. -/
theorem AnswersOrReports.mapError {b : Except Failure Text} {Q : Text → Prop}
    (hb : AnswersOrReports Q b) (path : Text) :
    (∀ canonical, b.mapError (·.reportedAt path) = .ok canonical → Q canonical)
      ∧ ∀ failure, b.mapError (·.reportedAt path) = .error failure →
          ∃ e, failure = .resolution e := by
  cases b with
  | ok text =>
      refine ⟨fun canonical h => ?_, nofun⟩
      injection h with h
      exact h ▸ hb
  | error failure =>
      refine ⟨nofun, fun failure' h => ?_⟩
      injection h with h
      exact h ▸ hb path

/-- The names that a path starts with come to a text that has bytes, if what they
are read from has bytes, or to a resolution error. -/
theorem startingNames_reports (hordinary : OrdinaryFaults answer) (s : σ) (limits : Limits)
    (mode : ExistenceMode) {path directory : Text} {encodable : Prop}
    (hpath : encodable → Encodable path) (hdirectory : encodable → Encodable directory) :
    let a := ((visitNames mode limits (startingNames path directory)).run answer s).value.mapError
      (·.reportedAt path)
    (∀ canonical, a = .ok canonical → encodable → Encodable canonical)
      ∧ ∀ failure, a = .error failure → ∃ e, failure = .resolution e := by
  let P : Name → Prop := fun n => encodable → Encodable n
  have hlinks : ∀ target, Encodable target → ∀ n ∈ names target, P n :=
    fun target htarget n hn _ => htarget.of_mem_names hn
  have hstart : ∀ n ∈ startingNames path directory, P n := fun n hn hs =>
    encodable_of_mem_startingNames (hpath hs) (hdirectory hs) hn
  obtain ⟨_, hreports, -⟩ :=
    (visitNames_reports hlinks limits mode hstart).run hordinary.honoured (s := s) trivial
  obtain ⟨hok, herror⟩ := hreports.mapError path
  refine ⟨fun canonical h hs => ?_, herror⟩
  obtain ⟨trail, rfl, htrail⟩ := hok canonical h
  exact encodable_pathOf fun n hn => htrail n (List.mem_reverse.mp hn) hs

/-- A resolution of a text fails with resolution errors only, and its answer has
bytes if what it starts from has bytes. -/
theorem canonicalPathShown_reports (hordinary : OrdinaryFaults answer) (s : σ) (shown : Text)
    (limits : Limits) (mode : ExistenceMode) (path : Text) :
    let a := ((canonicalPathShown shown limits mode path).run answer s).value
    (∀ canonical, a = .ok canonical → StartsEncodable answer s path → Encodable canonical)
      ∧ ∀ failure, a = .error failure → ∃ e, failure = .resolution e := by
  intro a
  have hrun : a = ((canonicalPathShown shown limits mode path).run answer s).value := rfl
  have hpath : StartsEncodable answer s path → Encodable path := And.left
  cases habsolute : isAbsolute path with
  | true =>
      simp only [canonicalPathShown, startingDirectory, habsolute, if_true, Dialogue.bind,
        Dialogue.run_tell, Dialogue.run_bind, Dialogue.run_done] at hrun
      rw [hrun]
      exact startingNames_reports hordinary s limits mode hpath
        fun _ _ hc => absurd hc List.not_mem_nil
  | false =>
      simp only [canonicalPathShown, startingDirectory, habsolute, Bool.false_eq_true, if_false,
        Dialogue.bind, Dialogue.run_ask] at hrun
      cases hreply : (answer .workingDirectory s).1 with
      | error fault =>
          rw [hreply] at hrun
          obtain ⟨e, he⟩ := (hordinary s .workingDirectory fault hreply).failureAt path
          rw [hrun]
          refine ⟨fun canonical h => ?_, fun failure h => ?_⟩
          · cases h
          · injection h with h
            exact ⟨e, h ▸ he⟩
      | ok directory =>
          rw [hreply] at hrun
          simp only [Dialogue.bind, Dialogue.run_tell, Dialogue.run_bind,
            Dialogue.run_done] at hrun
          rw [hrun]
          exact startingNames_reports hordinary _ limits mode hpath
            fun hs => hs.2 habsolute directory hreply

/-- Both are text, or both are bytes. -/
def PathArgument.SameForm : PathArgument → PathArgument → Prop
  | .text _, .text _ | .bytes _, .bytes _ => True
  | _, _ => False

/-- An answer in the form of the path, or a resolution error, or a working
directory without bytes where the answer would have to be bytes. -/
inductive Ends (answer : Dialogue.Answering σ) (s : σ) (argument : PathArgument) :
    Except Failure PathArgument → Prop
  | answered (canonical : PathArgument) : canonical.SameForm argument →
      Ends answer s argument (.ok canonical)
  | reported (e : ResolutionError) : Ends answer s argument (.error (.resolution e))
  | unencodable (bytes : List UInt8) (directory : Text) (u : Unencodable) :
      argument = .bytes bytes → isAbsolute (ofUtf8 bytes) = false →
      (answer .workingDirectory s).1 = .ok directory → ¬ Encodable directory →
      Ends answer s argument (.error (.unencodable u))

theorem canonicalArgument_ends (hordinary : OrdinaryFaults answer) (s : σ) (shown : Text → Text)
    (limits : Limits) (mode : ExistenceMode) (argument : PathArgument) :
    Ends answer s argument ((canonicalArgument shown limits mode argument).run answer s).value := by
  cases argument with
  | text path =>
      have h := canonicalPathShown_reports hordinary s (shown path) limits mode path
      simp only [canonicalArgument, Dialogue.run_bind, Dialogue.run_done]
      cases hvalue : ((canonicalPathShown (shown path) limits mode path).run answer s).value with
      | ok canonical => exact .answered _ trivial
      | error failure =>
          obtain ⟨e, rfl⟩ := h.2 failure hvalue
          exact .reported e
  | bytes path =>
      have h := canonicalPathShown_reports hordinary s (shown (ofUtf8 path)) limits mode
        (ofUtf8 path)
      simp only [canonicalArgument, Dialogue.run_bind, Dialogue.run_done]
      cases hvalue : ((canonicalPathShown (shown (ofUtf8 path)) limits mode (ofUtf8 path)).run
          answer s).value with
      | error failure =>
          obtain ⟨e, rfl⟩ := h.2 failure hvalue
          exact .reported e
      | ok canonical =>
          have hencodable := h.1 canonical hvalue
          cases hbytes : utf8 canonical with
          | ok bytes =>
              simp only [Except.bind, hbytes]
              exact .answered _ trivial
          | error u =>
              simp only [Except.bind, hbytes]
              have hnone : ¬ Encodable canonical := by
                intro hall
                obtain ⟨bytes, hok⟩ := exists_utf8_iff.mpr hall
                rw [hok] at hbytes
                cases hbytes
              -- the path itself has bytes, so the working directory has none
              have hstart : ¬ StartsEncodable answer s (ofUtf8 path) := fun hs =>
                hnone (hencodable hs)
              simp only [StartsEncodable, encodable_ofUtf8, true_and, Classical.not_imp,
                not_forall] at hstart
              obtain ⟨hrelative, directory, hreply, hdirectory⟩ := hstart
              exact .unencodable path directory u rfl hrelative hreply hdirectory

end

-- =========================================================== in memory

namespace Tree

variable {t : Tree}

theorem faultAt_isOrdinary {code : Errno} (hfits : code.IsRepresentable) (path : Text) :
    (faultAt code path).IsOrdinary := isOrdinary_system hfits _

theorem walkNames_isOrdinary {atLink : DirId → Text → Except Fault Node} {path : Text}
    (hlink : ∀ holder target fault, atLink holder target = .error fault → fault.IsOrdinary)
    {node : Node} {ns : List Name} {fault : Fault}
    (h : t.walkNames atLink path node ns = .error fault) : fault.IsOrdinary := by
  fun_induction walkNames t atLink path node ns with
  | case1 node => cases h
  | case2 d rest ih => exact ih h
  | case3 d rest hdot ih => exact ih h
  | case4 d name rest hdot hdotDot hentry => exact (faultAt_isOrdinary (by decide) _).of_error h
  | case5 d name rest hdot hdotDot target hentry fault' hfault =>
      exact (hlink d target fault' hfault).of_error h
  | case6 d name rest hdot hdotDot target hentry node hnode ih => exact ih h
  | case7 d name rest hdot hdotDot node hentry hlink' ih => exact ih h
  | case8 node name rest hnode => exact (faultAt_isOrdinary (by decide) _).of_error h

theorem walk_isOrdinary {d : DirId} {path : Text} {fault : Fault}
    (h : t.walk d path = .error fault) : fault.IsOrdinary := by
  unfold walk at h
  generalize maxLinkDepth = depth at h
  induction depth generalizing d path fault with
  | zero =>
      exact walkNames_isOrdinary (fun _ _ _ => (faultAt_isOrdinary (by decide) path).of_error) h
  | succ depth ih => exact walkNames_isOrdinary (fun _ _ _ hlink => ih hlink) h

end Tree

/-- The faults of a filesystem in memory are ordinary. -/
theorem Store.ordinaryFaults : OrdinaryFaults Store.answer := by
  intro s question fault h
  have hbad : badHandle.IsOrdinary := isOrdinary_system (by decide) none
  cases question with
  | openRoot => cases h
  | openRelative base name =>
      simp only [answer, openRelative] at h
      split at h
      · exact hbad.of_error h
      · split at h
        · next hwalk => exact (Tree.walk_isOrdinary hwalk).of_error h
        · cases h
        · exact (Tree.faultAt_isOrdinary (by decide) _).of_error h
  | readLink base name =>
      simp only [answer, readLink] at h
      split at h
      · exact hbad.of_error h
      · split at h
        · exact (Tree.faultAt_isOrdinary (by decide) _).of_error h
        · split at h
          · exact (Tree.faultAt_isOrdinary (by decide) _).of_error h
          · cases h
          · exact (Tree.faultAt_isOrdinary (by decide) _).of_error h
  | close handle =>
      simp only [answer, closeHandle] at h
      split at h
      · exact hbad.of_error h
      · cases h
  | workingDirectory => cases h

-- ================================================================ ends

/-- A path with a mode ends in its own form or with a resolution error, unless
bytes are resolved from a working directory without bytes; and the lenient form
answers what there is to answer, and a resolution error with nothing. -/
theorem resolve_ends {σ : Type} {answer : Dialogue.Answering σ}
    (hordinary : OrdinaryFaults answer) (s : σ) (limits : Limits) (env : Environment)
    {path exact : Value} {argument : PathArgument} {mode : ExistenceMode}
    (hpath : path.path? = .ok argument) (hmode : exact.mode? env = .ok mode) :
    let ended := ((resolve limits env path exact).run answer s).value
    let endedOrNone := ((resolveOrNone limits env path exact).run answer s).value
    Ends answer s argument ended
      ∧ (∀ canonical, endedOrNone = .ok (some canonical) ↔ ended = .ok canonical)
      ∧ (endedOrNone = .ok none ↔ ∃ e, ended = .error (.resolution e)) := by
  intro ended endedOrNone
  refine ⟨?_, ?_⟩
  · show Ends answer s argument ((resolve limits env path exact).run answer s).value
    unfold resolve
    rw [hpath, hmode]
    exact canonicalArgument_ends hordinary s _ limits mode argument
  · have hrun : endedOrNone
        = ((resolveOrNone limits env path exact).run answer s).value := rfl
    simp only [resolveOrNone, Dialogue.run_bind] at hrun
    cases hended : ended with
    | ok canonical =>
        have hresolved : ((resolve limits env path exact).run answer s).value = .ok canonical :=
          hended
        simp only [hresolved, Dialogue.run_done] at hrun
        simp [hrun]
    | error failure =>
        have hresolved : ((resolve limits env path exact).run answer s).value = .error failure :=
          hended
        simp only [hresolved] at hrun
        cases failure <;> simp [hrun]

/-- A directory whose name is a lone surrogate, and which is the working
directory. -/
def Store.unencodable : Store :=
  ((Store.empty [0x2F, 0xD800]).makeDirectory [0x2F, 0xD800] true false).2

/-- The working directory itself has no answer in bytes, and neither way of
resolving reports that. -/
theorem unencodable_workingDirectory_escapes :
    ((resolve .standard .empty (.bytes []) (.truth false)).run Store.answer .unencodable).value
        = .error (.unencodable ⟨0xD800, 1, 2⟩)
      ∧ ((resolveOrNone .standard .empty (.bytes []) (.truth false)).run Store.answer
          .unencodable).value = .error (.unencodable ⟨0xD800, 1, 2⟩) := ⟨rfl, rfl⟩

/-- Bytes that climb out of it are answered in bytes. -/
theorem resolve_ends_outside_unencodable :
    Ends Store.answer .unencodable (.bytes [0x2E, 0x2E]) (.ok (.bytes [0x2F]))
      ∧ ((resolveOrNone .standard .empty (.bytes [0x2E, 0x2E]) (.mode .exact)).run Store.answer
          .unencodable).value = .ok (some (.bytes [0x2F])) := by
  have hanswer : ((resolve .standard .empty (.bytes [0x2E, 0x2E]) (.mode .exact)).run Store.answer
      .unencodable).value = .ok (.bytes [0x2F]) := rfl
  have hpath : (Value.bytes [0x2E, 0x2E]).path? = .ok (.bytes [0x2E, 0x2E]) := rfl
  have hmode : (Value.mode .exact).mode? .empty = .ok .exact := rfl
  obtain ⟨hends, hsome, -⟩ :=
    resolve_ends Store.ordinaryFaults .unencodable .standard .empty hpath hmode
  exact ⟨hanswer ▸ hends, (hsome _).mpr hanswer⟩

end PathResolution
