/-
Two ways to tell how names are taken on the disk.

A resolution has one queue: the target of a link goes in front of the names that
wait, and what has been taken is forgotten (`Passage`). One who works on the
text of a path takes a target on its own and then goes on behind it (`Comes`).
Both tell the same story. A passage along some names and more falls into what
the names come to and a passage along the rest (`Passage.split`), by induction
on its cost: the target of a link makes the queue longer and the cost less.

What names come to is determined by the names and the directory that they are
taken in, and so is the cost (`Comes.unique`). This is why no link on the way is
met again while its own target is taken: that would cost less than itself.
-/
import PathResolution.Proofs.Disk.Lookup
import PathResolution.Proofs.Resolution.Course

namespace PathResolution.Disk

variable {t : Tree} {d c : DirId} {name : Name} {o o' o₁ o₂ : Option DirId} {n n' : Nat}
  {ns pending trail trail' trail₁ trail₂ final : List Name}

-- ================================================================= names

/-- What taking a name that is no link does to the trail, and the directory that
it leads to. It leads to none if the name is one of a file, or of nothing. -/
inductive Goes (t : Tree) : Name → List Name → DirId → List Name → Option DirId → Prop
  | stay {trail : List Name} {d : DirId} : Goes t dot trail d trail (some d)
  | climb {trail : List Name} {d : DirId} : Goes t dotDot trail d trail.tail (some (t.parent d))
  | enter {name : Name} {trail : List Name} {d c : DirId} : Finds t d name (some (.directory c)) →
      Goes t name trail d (name :: trail) (some c)
  | stop {name : Name} {trail : List Name} {d : DirId} {found : Option Node} :
      Finds t d name found → found = none ∨ found = some .file →
      Goes t name trail d (name :: trail) none

theorem Goes.not_link {target : Text} (h : Goes t name trail d trail' o) :
    ¬ Finds t d name (some (.link target)) := by
  intro hlink
  cases h with
  | stay => exact hlink.plain.ne_dot rfl
  | climb => exact hlink.plain.ne_dotDot rfl
  | enter hfinds => cases hfinds.unique hlink
  | stop hfinds hfound =>
      rw [hfinds.unique hlink] at hfound
      rcases hfound with hfound | hfound <;> cases hfound

/-- A name leads to one directory, whatever the trail is. -/
theorem Goes.unique (h : Goes t name trail d trail' o) (h₁ : Goes t name trail₁ d trail₂ o₂) :
    o = o₂ ∧ (trail = trail₁ → trail' = trail₂) := by
  cases h with
  | stay =>
      cases h₁ with
      | stay => exact ⟨rfl, id⟩
      | enter hfinds => exact absurd rfl hfinds.plain.ne_dot
      | stop hfinds _ => exact absurd rfl hfinds.plain.ne_dot
  | climb =>
      cases h₁ with
      | climb => exact ⟨rfl, congrArg List.tail⟩
      | enter hfinds => exact absurd rfl hfinds.plain.ne_dotDot
      | stop hfinds _ => exact absurd rfl hfinds.plain.ne_dotDot
  | enter hfinds =>
      cases h₁ with
      | stay => exact absurd rfl hfinds.plain.ne_dot
      | climb => exact absurd rfl hfinds.plain.ne_dotDot
      | enter hfinds₁ =>
          cases hfinds.unique hfinds₁
          exact ⟨rfl, congrArg (name :: ·)⟩
      | stop hfinds₁ hfound =>
          rw [← hfinds.unique hfinds₁] at hfound
          rcases hfound with hfound | hfound <;> cases hfound
  | stop hfinds hfound =>
      cases h₁ with
      | stay => exact absurd rfl hfinds.plain.ne_dot
      | climb => exact absurd rfl hfinds.plain.ne_dotDot
      | enter hfinds₁ =>
          rw [hfinds.unique hfinds₁] at hfound
          rcases hfound with hfound | hfound <;> cases hfound
      | stop _ _ => exact ⟨rfl, congrArg (name :: ·)⟩

-- ================================================================ queues

/-- The names of a queue are taken until none waits: from a trail and a directory
to the final trail, at a cost of one for each name. -/
inductive Passage (t : Tree) : List Name → List Name → Option DirId → List Name → Nat → Prop
  | nil {trail : List Name} {o : Option DirId} : Passage t [] trail o trail 0
  | go {name : Name} {pending trail trail₁ final : List Name} {d : DirId} {o₁ : Option DirId}
      {n : Nat} : Goes t name trail d trail₁ o₁ → Passage t pending trail₁ o₁ final n →
      Passage t (name :: pending) trail (some d) final (n + 1)
  | follow {name : Name} {target : Text} {pending trail final : List Name} {d : DirId} {n : Nat} :
      Finds t d name (some (.link target)) →
      Passage t (names target ++ pending) (linkTrail target trail)
        (some (Tree.walkStart d target)) final n →
      Passage t (name :: pending) trail (some d) final (n + 1)

/-- Names that stand for the entries on the way to a directory are taken as they
are. -/
theorem Sound.passage_of_nodeFrom? (hs : Sound t) {w : DirId} :
    ∀ (front trail : List Name) (d : DirId) (n : Nat),
      t.nodeFrom? (.directory d) front = some (.directory w) →
      Passage t (front ++ pending) trail (some d) final n →
      ∃ n, Passage t pending (front.reverse ++ trail) (some w) final n := by
  intro front
  induction front with
  | nil =>
      intro trail d n hfront h
      injection hfront with hfront
      injection hfront with hfront
      exact ⟨n, hfront ▸ h⟩
  | cons name front ih =>
      intro trail d n hfront h
      rw [Tree.nodeFrom?] at hfront
      obtain ⟨node, hentry, hfront⟩ := Option.bind_eq_some_iff.mp hfront
      obtain ⟨hplain, hkept⟩ := hs.plain_of_entry d name node hentry
      obtain ⟨c, rfl⟩ : ∃ c, node = .directory c := by
        cases node with
        | directory c => exact ⟨c, rfl⟩
        | file => cases front <;> cases hfront
        | link target => cases front <;> cases hfront
      have hfound : ∀ found, Finds t d name found → found = some (.directory c) := by
        intro found hfinds
        rw [← hfinds.entry?_eq, hkept, hentry]
      rw [List.reverse_cons, List.append_assoc, List.singleton_append]
      cases h with
      | go hgoes h =>
          cases hgoes with
          | stay => exact absurd rfl hplain.ne_dot
          | climb => exact absurd rfl hplain.ne_dotDot
          | enter hfinds =>
              cases hfound _ hfinds
              exact ih _ _ _ hfront h
          | stop hfinds hnode =>
              rw [hfound _ hfinds] at hnode
              rcases hnode with hnode | hnode <;> cases hnode
      | follow hfinds h => cases hfound _ hfinds

-- =============================================================== targets

/-- What names come to: they are taken one by one, and the target of a link on
its own before the name behind it. -/
inductive Comes (t : Tree) :
    List Name → List Name → Option DirId → List Name → Option DirId → Nat → Prop
  | nil {trail : List Name} {o : Option DirId} : Comes t [] trail o trail o 0
  | go {name : Name} {ns trail trail₁ trail' : List Name} {d : DirId} {o₁ o' : Option DirId}
      {n : Nat} : Goes t name trail d trail₁ o₁ → Comes t ns trail₁ o₁ trail' o' n →
      Comes t (name :: ns) trail (some d) trail' o' (n + 1)
  | follow {name : Name} {target : Text} {ns trail trail₁ trail' : List Name} {d : DirId}
      {o₁ o' : Option DirId} {m n : Nat} : Finds t d name (some (.link target)) →
      Comes t (names target) (linkTrail target trail) (some (Tree.walkStart d target)) trail₁ o₁ m →
      Comes t ns trail₁ o₁ trail' o' n →
      Comes t (name :: ns) trail (some d) trail' o' (m + n + 1)

/-- What names come to does not depend on the trail, except for the trail that
they leave. -/
theorem Comes.unique (h : Comes t ns trail o trail' o' n)
    (h₁ : Comes t ns trail₁ o trail₂ o₂ n') :
    o' = o₂ ∧ n = n' ∧ (trail = trail₁ → trail' = trail₂) := by
  induction h generalizing trail₁ trail₂ o₂ n' with
  | nil =>
      cases h₁
      exact ⟨rfl, rfl, id⟩
  | go hgoes _ ih =>
      cases h₁ with
      | go hgoes₁ h₁ =>
          obtain ⟨rfl, hsame⟩ := hgoes.unique hgoes₁
          obtain ⟨rfl, rfl, htrail⟩ := ih h₁
          exact ⟨rfl, rfl, fun heq => htrail (hsame heq)⟩
      | follow hfinds _ _ => exact absurd hfinds hgoes.not_link
  | follow hfinds _ _ ihtarget ih =>
      cases h₁ with
      | go hgoes₁ _ => exact absurd hfinds hgoes₁.not_link
      | follow hfinds₁ htarget₁ h₁ =>
          cases hfinds.unique hfinds₁
          obtain ⟨rfl, rfl, hsame⟩ := ihtarget htarget₁
          obtain ⟨rfl, rfl, htrail⟩ := ih h₁
          refine ⟨rfl, rfl, fun heq => htrail (hsame ?_)⟩
          rw [heq]

/-- A passage goes through what its first names come to. -/
theorem Passage.split :
    ∀ (n : Nat) (ns pending trail : List Name) (o : Option DirId),
      Passage t (ns ++ pending) trail o final n →
      ∃ trail' o' m k, Comes t ns trail o trail' o' m ∧ Passage t pending trail' o' final k
        ∧ m + k = n := by
  intro n
  -- a target is split off a queue that may be longer, at a cost that is less
  induction n using Nat.strongRecOn with
  | ind n ih =>
      intro ns pending trail o h
      cases ns with
      | nil => exact ⟨trail, o, 0, n, .nil, h, Nat.zero_add n⟩
      | cons name ns =>
          generalize hall : name :: ns ++ pending = all at h
          cases h with
          | nil => cases hall
          | @go _ _ _ trail₁ _ _ o₁ n hgoes h =>
              obtain ⟨rfl, rfl⟩ := List.cons_eq_cons.mp hall
              obtain ⟨trail', o', m, k, hcomes, hrest, hcost⟩ :=
                ih n (Nat.lt_succ_self n) ns _ _ _ h
              exact ⟨trail', o', m + 1, k, .go hgoes hcomes, hrest, by omega⟩
          | @follow _ target _ _ _ _ n hfinds h =>
              obtain ⟨rfl, rfl⟩ := List.cons_eq_cons.mp hall
              obtain ⟨trail₁, o₁, m₁, k₁, htarget, hback, hcost₁⟩ :=
                ih n (Nat.lt_succ_self n) (names target) _ _ _ h
              obtain ⟨trail', o', m, k, hcomes, hrest, hcost⟩ := ih k₁ (by omega) ns _ _ _ hback
              exact ⟨trail', o', m₁ + m + 1, k, .follow hfinds htarget hcomes, hrest, by omega⟩

/-- A whole passage is what its names come to. -/
theorem Passage.comes (h : Passage t ns trail o final n) :
    ∃ o' m, Comes t ns trail o final o' m := by
  rw [← List.append_nil ns] at h
  obtain ⟨trail', o', m, k, hcomes, hrest, -⟩ := Passage.split n ns [] trail o h
  cases hrest
  exact ⟨o', m, hcomes⟩

end PathResolution.Disk
