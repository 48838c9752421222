/-
What a resolution has written down, whatever the filesystem answers.

The queue only ever holds names of paths: those of the argument, of the working
directory and of the targets of links, whatever texts these are. The trail
holds names that were taken from the queue and are neither `.` nor `..`. So the
canonical path of every run that gives one is canonical in form
(`canonicalPathShown_canonical`), against any filesystem at all.

The walk through the kinds of names is done once, for every protocol at the
same time: `Cursor.Stages.Kept` says what a protocol has to know about the moves of a
cursor, and `takeName_follows` and `takeNames_follows` carry it through the
loop. A protocol that counts calls has a stronger invariant for each stage of
taking a name; one that knows nothing has `True`.
-/
import PathResolution.Proofs.Names
import PathResolution.Proofs.Protocol
import PathResolution.Resolution

namespace PathResolution

variable {κ : Type} {p : Protocol κ}

-- ============================================================== spelling

/-- Names wait in the queue, and plain names were committed. -/
structure Visit.WellSpelt (v : Visit) : Prop where
  pending : ∀ n ∈ v.pending, IsName n
  trail : ∀ n ∈ v.trail, IsPlainName n

/-- What is left after taking a name is well spelt; a failure leaves nothing
behind. -/
def Progress.WellSpelt : Progress → Prop
  | .onward v => v.WellSpelt
  | .arrived trail _ => ∀ n ∈ trail, IsPlainName n
  | .stuck _ _ => True

-- ================================================== what a protocol knows

/-- What a protocol knows of the cursor of a resolution, stage by stage. -/
structure Cursor.Stages (κ : Type) where
  /-- At the head of the loop, with this budget left. -/
  head : Nat → Cursor → κ → Prop
  /-- Once a link may have been read, with this budget left after the name. -/
  read : Nat → Cursor → κ → Prop
  /-- When the loop has ended, for whatever reason. -/
  ended : Cursor → κ → Prop
  /-- When there is no cursor any more. -/
  left : κ → Prop

namespace Cursor.Stages

/-- Every question of a cursor leads from its stage to the next one. A move
that fails ends the loop. -/
structure Kept (st : Stages κ) (p : Protocol κ) : Prop where
  read_of_head : ∀ budget c notes, st.head (budget + 1) c notes → st.read budget c notes
  head_of_read : ∀ budget c notes, st.read budget c notes → st.head budget c notes
  ended_of_head : ∀ budget c notes, st.head budget c notes → st.ended c notes
  readLink : ∀ budget c notes name, st.head (budget + 1) c notes →
    (c.readLink name).Follows p (fun a => st.read budget a.2) notes
  descend : ∀ budget c notes name, st.read budget c notes →
    (c.descend name).Follows p
      (fun a notes => st.ended a.2 notes ∧ (a.1 = .ok () → st.head budget a.2 notes)) notes
  ascend : ∀ budget c notes, st.read budget c notes →
    c.ascend.Follows p
      (fun a notes => st.ended a.2 notes ∧ (a.1 = .ok () → st.head budget a.2 notes)) notes
  reset : ∀ budget c notes, st.read budget c notes →
    c.reset.Follows p
      (fun a notes => st.ended a.2 notes ∧ (a.1 = .ok () → st.head budget a.2 notes)) notes
  close : ∀ c notes, st.ended c notes → c.close.Follows p (fun _ => st.left) notes

/-- What is known after taking a name: the loop is at its head again, or it has
ended. -/
def After (st : Stages κ) (budget : Nat) : Progress → κ → Prop
  | .onward v, notes => st.head budget v.cursor notes
  | .arrived _ cursor, notes => st.ended cursor notes
  | .stuck _ cursor, notes => st.ended cursor notes

end Cursor.Stages

section

variable {st : Cursor.Stages κ} {budget : Nat} {mode : ExistenceMode}
  {maxLinkSize : Nat} {v : Visit} {notes : κ} {name : Name}

theorem afterMove_follows {path : Text} {trail pending : List Name}
    {a : Cursor.Answer Unit} (htrail : ∀ n ∈ trail, IsPlainName n)
    (hpending : ∀ n ∈ pending, IsName n)
    (hc : st.ended a.2 notes ∧ (a.1 = .ok () → st.head budget a.2 notes)) :
    (afterMove path trail pending a).Follows p
      (fun progress notes => progress.WellSpelt ∧ st.After budget progress notes) notes := by
  obtain ⟨outcome, cursor⟩ := a
  cases outcome with
  | ok _ => exact ⟨⟨hpending, htrail⟩, hc.2 rfl⟩
  | error fault => exact ⟨trivial, hc.1⟩

theorem climb_follows (hk : st.Kept p) (hv : v.WellSpelt)
    (hc : st.head (budget + 1) v.cursor notes) :
    (climb v).Follows p
      (fun progress notes => progress.WellSpelt ∧ st.After budget progress notes) notes := by
  have htrail : ∀ n ∈ v.trail.tail, IsPlainName n := fun n hn =>
    hv.trail n (List.mem_of_mem_tail hn)
  unfold climb
  refine (hk.ascend _ _ _ (hk.read_of_head _ _ _ hc)).bind fun a notes ha => ?_
  exact afterMove_follows htrail hv.pending ha

theorem commit_follows (hk : st.Kept p) (hv : v.WellSpelt)
    (hname : IsPlainName name) (hc : st.read budget v.cursor notes) :
    (commit name v).Follows p
      (fun progress notes => progress.WellSpelt ∧ st.After budget progress notes) notes := by
  have htrail : ∀ n ∈ name :: v.trail, IsPlainName n := by
    intro n hn
    rcases List.mem_cons.mp hn with rfl | hn
    · exact hname
    · exact hv.trail n hn
  unfold commit
  split
  · exact ⟨⟨hv.pending, htrail⟩, hk.head_of_read _ _ _ hc⟩
  · refine (hk.descend _ _ _ name hc).bind fun a notes ha => ?_
    exact afterMove_follows htrail hv.pending ha

theorem followLink_follows (hk : st.Kept p) (hv : v.WellSpelt)
    (target : Text) (hc : st.read budget v.cursor notes) :
    (followLink maxLinkSize name target v).Follows p
      (fun progress notes => progress.WellSpelt ∧ st.After budget progress notes) notes := by
  have hpending : ∀ n ∈ (prependPath target v.pending).1, IsName n := by
    intro n hn
    rcases List.mem_append.mp hn with hn | hn
    · exact isName_of_mem_names hn
    · exact hv.pending n hn
  have hhead : st.head budget v.cursor notes := hk.head_of_read _ _ _ hc
  have hended : st.ended v.cursor notes := hk.ended_of_head _ _ _ hhead
  unfold followLink
  split
  · exact ⟨trivial, hended⟩
  · split
    · exact ⟨trivial, hended⟩
    · split
      · exact ⟨trivial, hended⟩
      · show Dialogue.Follows p _ _ notes
        split
        · refine (hk.reset _ _ _ hc).bind fun a notes ha => ?_
          exact afterMove_follows (by simp) hpending ha
        · exact ⟨⟨hpending, hv.trail⟩, hhead⟩

theorem afterUnreadable_follows (hk : st.Kept p)
    (hv : v.WellSpelt) (hname : IsPlainName name) (fault : Fault)
    (hc : st.read budget v.cursor notes) :
    (afterUnreadable mode name v fault).Follows p
      (fun progress notes => progress.WellSpelt ∧ st.After budget progress notes) notes := by
  have hended : st.ended v.cursor notes :=
    hk.ended_of_head _ _ _ (hk.head_of_read _ _ _ hc)
  unfold afterUnreadable
  split
  · exact ⟨trivial, hended⟩
  · split
    · exact commit_follows hk hv hname hc
    · split
      · refine ⟨?_, hended⟩
        intro n hn
        rcases List.mem_cons.mp hn with rfl | hn
        · exact hname
        · exact hv.trail n hn
      · exact ⟨trivial, hended⟩

/-- Taking a name keeps the spelling and what the protocol knows. -/
theorem takeName_follows (hk : st.Kept p) (hv : v.WellSpelt)
    (hname : IsName name) (hc : st.head (budget + 1) v.cursor notes) :
    (takeName mode maxLinkSize name v).Follows p
      (fun progress notes => progress.WellSpelt ∧ st.After budget progress notes) notes := by
  unfold takeName
  split
  · exact ⟨hv, hk.head_of_read _ _ _ (hk.read_of_head _ _ _ hc)⟩
  · split
    · exact climb_follows hk hv hc
    · next hdot hdotDot =>
      have hplain : IsPlainName name := ⟨hname, hdot, hdotDot⟩
      refine (hk.readLink _ _ _ name hc).bind fun a notes ha => ?_
      have hv' : ({ v with cursor := a.2 } : Visit).WellSpelt := ⟨hv.pending, hv.trail⟩
      obtain ⟨outcome, cursor⟩ := a
      cases outcome with
      | ok target => exact followLink_follows hk hv' target ha
      | error fault => exact afterUnreadable_follows hk hv' hplain fault ha

end

-- ================================================================== loop

/-- The loop ends with a well-spelt trail if it ends with one. -/
def LoopAnswer.WellSpelt (a : LoopAnswer) : Prop :=
  ∀ trail, a.1 = .ok trail → ∀ n ∈ trail, IsPlainName n

/-- The loop keeps the spelling, and for every name that is taken it goes one
step down in what the protocol knows. -/
theorem takeNames_follows {st : Cursor.Stages κ} {mode : ExistenceMode} {maxLinkSize : Nat}
    (hk : st.Kept p) :
    ∀ (budget : Nat) (v : Visit) (notes : κ), v.WellSpelt → st.head budget v.cursor notes →
      (takeNames mode maxLinkSize budget v).Follows p
        (fun a notes => a.WellSpelt ∧ st.ended a.2 notes) notes := by
  have harrived : ∀ {trail : List Name} {cursor : Cursor}, (∀ n ∈ trail, IsPlainName n) →
      LoopAnswer.WellSpelt (.ok trail, cursor) := by
    intro trail cursor htrail trail' h
    injection h with h
    exact h ▸ htrail
  intro budget
  induction budget with
  | zero =>
      intro ⟨pending, trail, cursor⟩ notes hv hc
      have hended : st.ended cursor notes := hk.ended_of_head _ _ _ hc
      cases pending with
      | nil => exact ⟨harrived hv.trail, hended⟩
      | cons name pending => exact ⟨nofun, hended⟩
  | succ budget ih =>
      intro ⟨pending, trail, cursor⟩ notes hv hc
      cases pending with
      | nil => exact ⟨harrived hv.trail, hk.ended_of_head _ _ _ hc⟩
      | cons name pending =>
          have hname : IsName name := hv.pending name List.mem_cons_self
          have hv' : (⟨pending, trail, cursor⟩ : Visit).WellSpelt :=
            ⟨fun n hn => hv.pending n (List.mem_cons_of_mem _ hn), hv.trail⟩
          refine (takeName_follows hk hv' hname hc).bind fun progress notes h => ?_
          obtain ⟨hspelt, hleft⟩ := h
          cases progress with
          | onward v => exact ih v notes hspelt hleft
          | arrived trail cursor => exact ⟨harrived hspelt, hleft⟩
          | stuck failure cursor => exact ⟨nofun, hleft⟩

theorem isName_of_mem_startingNames {path directory : Text} {n : Name}
    (h : n ∈ startingNames path directory) : IsName n := by
  rcases List.mem_append.mp h with h | h
  · exact isName_of_mem_names h
  · rcases List.mem_append.mp h with h | h
    · exact isName_of_mem_names h
    · cases h

theorem isCanonical_trailPath {trail : List Name} (h : ∀ n ∈ trail, IsPlainName n) :
    IsCanonical (trailPath trail) :=
  ⟨trail.reverse, rfl, fun n hn => h n (List.mem_reverse.mp hn)⟩

/-- The names of a canonical path are the committed ones. -/
theorem names_trailPath {trail : List Name} (h : ∀ n ∈ trail, IsPlainName n) :
    names (trailPath trail) = trail.reverse :=
  names_pathOf fun n hn => (h n (List.mem_reverse.mp hn)).toIsName

-- ============================================================ whole paths

def CanonicalAnswer (a : Except Failure Text) : Prop :=
  ∀ canonical, a = .ok canonical → IsCanonical canonical

/-- A resolution gives a canonical path if it gives one, and whatever it gives,
the cursor is gone. -/
theorem visitNames_follows {st : Cursor.Stages κ} (limits : Limits) (mode : ExistenceMode)
    {pending : List Name} {notes : κ} (hk : st.Kept p)
    (henter : Cursor.closed.enter.Follows p
      (fun a notes => (a.1 = .ok () → st.head limits.loopBudget a.2 notes)
        ∧ (∀ fault, a.1 = .error fault → st.left notes)) notes)
    (hpending : ∀ n ∈ pending, IsName n) :
    (visitNames mode limits pending).Follows p
      (fun a notes => CanonicalAnswer a ∧ st.left notes) notes := by
  unfold visitNames
  refine henter.bind fun a notes ha => ?_
  obtain ⟨entered, cursor⟩ := a
  cases entered with
  | error fault => exact ⟨nofun, ha.2 fault rfl⟩
  | ok _ =>
      refine (takeNames_follows hk _ _ notes ⟨hpending, by simp⟩ (ha.1 rfl)).bind
        fun b notes hb => ?_
      obtain ⟨answer, cursor⟩ := b
      refine (hk.close cursor notes hb.2).bind fun c notes hc => ?_
      obtain ⟨closed, _⟩ := c
      cases closed with
      | error fault => exact ⟨nofun, hc⟩
      | ok _ =>
          refine ⟨fun canonical h => ?_, hc⟩
          cases answer with
          | error failure => cases h
          | ok trail =>
              injection h with h
              exact h ▸ isCanonical_trailPath (hb.1 trail rfl)

/-- The same for a whole path; `asked` is what is known once the place to start
from is known. -/
theorem canonicalPathShown_follows {st : Cursor.Stages κ} {asked : κ → Prop}
    (shown : Text) (limits : Limits) (mode : ExistenceMode) (path : Text) {notes : κ}
    (hk : st.Kept p)
    (hstart : (startingDirectory path).Follows p
      (fun a notes => (∀ directory, a = .ok directory → asked notes)
        ∧ (∀ failure, a = .error failure → st.left notes)) notes)
    (henter : ∀ notes, asked notes → Cursor.closed.enter.Follows p
      (fun a notes => (a.1 = .ok () → st.head limits.loopBudget a.2 notes)
        ∧ (∀ fault, a.1 = .error fault → st.left notes)) notes) :
    (canonicalPathShown shown limits mode path).Follows p
      (fun a notes => CanonicalAnswer a ∧ st.left notes) notes := by
  unfold canonicalPathShown
  refine hstart.bind fun a notes ha => ?_
  cases a with
  | error failure => exact ⟨nofun, ha.2 failure rfl⟩
  | ok directory =>
      have hpending : ∀ n ∈ startingNames path directory, IsName n := fun n hn =>
        isName_of_mem_startingNames hn
      refine (visitNames_follows limits mode hk (henter notes (ha.1 directory rfl))
        hpending).bind fun answer notes h => ?_
      refine ⟨fun canonical hc => ?_, h.2⟩
      cases answer with
      | error failure => cases hc
      | ok text =>
          injection hc with hc
          exact hc ▸ h.1 text rfl

-- ====================================================== textual arguments

section

variable {σ : Type} {answer : Dialogue.Answering σ} {s : σ} {limits : Limits} {env : Environment}
  {path : Text} {exact : Value}

/-- A text is resolved as the path that it is. -/
theorem resolve_string_value {mode : ExistenceMode} (hmode : exact.mode? env = .ok mode) :
    ((resolve limits env (.string path) exact).run answer s).value
      = ((canonicalPathShown (quoted path) limits mode path).run answer s).value.map .text := by
  simp only [resolve, Value.path?, hmode, canonicalArgument, Dialogue.run_bind,
    Dialogue.run_done]
  rfl

theorem resolve_string_asked {mode : ExistenceMode} (hmode : exact.mode? env = .ok mode) :
    (resolve limits env (.string path) exact).asked answer s
      = (canonicalPathShown (quoted path) limits mode path).asked answer s := by
  simp only [resolve, Value.path?, hmode, canonicalArgument, Dialogue.asked_bind, Dialogue.asked,
    List.append_nil]
  rfl

theorem mode_of_resolve_string {canonical : PathArgument}
    (h : ((resolve limits env (.string path) exact).run answer s).value = .ok canonical) :
    ∃ mode, exact.mode? env = .ok mode := by
  cases hmode : exact.mode? env with
  | ok mode => exact ⟨mode, rfl⟩
  | error e =>
      simp only [resolve, Value.path?, hmode, Dialogue.run_done] at h
      cases h

end

-- ======================================================= against anything

/-- Nothing is known of a dialogue with anyone. -/
theorem Dialogue.follows_anything {α : Type} {post : α → Unit → Prop} (d : Dialogue α)
    (hpost : ∀ value, post value ()) : d.Follows Protocol.anything post () := by
  induction d with
  | done value => exact hpost value
  | tell entry rest ih => exact ih
  | ask question next ih => exact ⟨trivial, fun reply _ => ih reply⟩

def Cursor.Stages.unknown : Cursor.Stages Unit :=
  ⟨fun _ _ _ => True, fun _ _ _ => True, fun _ _ => True, fun _ => True⟩

theorem Cursor.Stages.unknown_kept : Cursor.Stages.unknown.Kept Protocol.anything where
  read_of_head _ _ _ _ := trivial
  head_of_read _ _ _ _ := trivial
  ended_of_head _ _ _ _ := trivial
  readLink _ _ _ _ _ := Dialogue.follows_anything _ fun _ => trivial
  descend _ _ _ _ _ := Dialogue.follows_anything _ fun _ => ⟨trivial, fun _ => trivial⟩
  ascend _ _ _ _ := Dialogue.follows_anything _ fun _ => ⟨trivial, fun _ => trivial⟩
  reset _ _ _ _ := Dialogue.follows_anything _ fun _ => ⟨trivial, fun _ => trivial⟩
  close _ _ _ := Dialogue.follows_anything _ fun _ => trivial

/-- Every path that a resolution gives is canonical, whatever it was told. -/
theorem canonicalPathShown_canonical (shown : Text) (limits : Limits) (mode : ExistenceMode)
    (path : Text) :
    (canonicalPathShown shown limits mode path).Follows Protocol.anything
      (fun a _ => CanonicalAnswer a) () := by
  have hstart : (startingDirectory path).Follows Protocol.anything
      (fun a _ => (∀ directory, a = .ok directory → True)
        ∧ (∀ failure, a = .error failure → True)) () :=
    Dialogue.follows_anything _ fun _ => ⟨fun _ _ => trivial, fun _ _ => trivial⟩
  have h := canonicalPathShown_follows shown limits mode path
    Cursor.Stages.unknown_kept hstart fun _ _ =>
      Dialogue.follows_anything _ fun _ => ⟨fun _ => trivial, fun _ _ => trivial⟩
  exact h.mono fun _ _ ha => ha.1

end PathResolution
