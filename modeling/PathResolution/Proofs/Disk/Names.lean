/-
Names as the disk keeps them.

The disk keeps a name as its bytes and gives it back as their text, so the text
that comes back need not be the one that was handed over (`kept`). What matters
to paths survives: a byte below 0x80 stands for the code point of its number and
for nothing else, so a slash divides the bytes as it divides the text
(`kept_append_separator`), a name stays a name, and only `.` and `..` become `.`
and `..` (`IsPlainName.kept`). Keeping a path is keeping each of its names
(`names_kept`).
-/
import PathResolution.Disk.Basic
import PathResolution.Proofs.Text.Encoding

namespace PathResolution

-- ============================================================= low bytes

theorem toNat_ofNat_of_lt {n : Nat} (h : n < 256) : (UInt8.ofNat n).toNat = n := by
  rw [UInt8.toNat_ofNat']
  exact Nat.mod_eq_of_lt h

/-- A byte below 0x80 is all of the code point that it belongs to. -/
theorem eq_singleton_of_low {c : CodePoint} {bytes : List UInt8} {b : UInt8}
    (h : c.utf8? = some bytes) (hb : b.toNat < 0x80) (hmem : b ∈ bytes) :
    c.val = b.toNat ∧ bytes = [b] := by
  -- the bytes of a longer sequence are not low
  have hhigh : ∀ n, 0x80 ≤ n → n < 256 → b ≠ UInt8.ofNat n := by
    intro n hlow hn heq
    rw [heq, toNat_ofNat_of_lt hn] at hb
    omega
  have hc : c.val < 0x110000 := c.isLt
  simp only [CodePoint.utf8?] at h
  split at h
  · next hone =>
    injection h with h
    subst h
    obtain rfl := List.mem_singleton.mp hmem
    rw [toNat_ofNat_of_lt (by omega)]
    exact ⟨rfl, rfl⟩
  all_goals exfalso
  split at h
  · injection h with h
    subst h
    simp only [List.mem_cons, List.not_mem_nil, or_false] at hmem
    rcases hmem with hmem | hmem
    · exact hhigh _ (by omega) (by omega) hmem
    · exact hhigh _ (by omega) (by omega) hmem
  split at h
  · injection h with h
    subst h
    exact hhigh _ (by omega) (by omega) (List.mem_singleton.mp hmem)
  split at h
  · cases h
  split at h
  · injection h with h
    subst h
    simp only [List.mem_cons, List.not_mem_nil, or_false] at hmem
    rcases hmem with hmem | hmem | hmem
    · exact hhigh _ (by omega) (by omega) hmem
    · exact hhigh _ (by omega) (by omega) hmem
    · exact hhigh _ (by omega) (by omega) hmem
  · injection h with h
    subst h
    simp only [List.mem_cons, List.not_mem_nil, or_false] at hmem
    rcases hmem with hmem | hmem | hmem | hmem
    · exact hhigh _ (by omega) (by omega) hmem
    · exact hhigh _ (by omega) (by omega) hmem
    · exact hhigh _ (by omega) (by omega) hmem
    · exact hhigh _ (by omega) (by omega) hmem

theorem utf8?_low {c : CodePoint} (h : c.val < 0x80) : c.utf8? = some [UInt8.ofNat c.val] := by
  simp only [CodePoint.utf8?, if_pos h]

/-- Low bytes and low code points occur together. -/
theorem mem_utf8_iff {t : Text} {bytes : List UInt8} {c : CodePoint} (h : utf8 t = .ok bytes)
    (hc : c.val < 0x80) : UInt8.ofNat c.val ∈ bytes ↔ c ∈ t := by
  have hb : (UInt8.ofNat c.val).toNat = c.val := toNat_ofNat_of_lt (by omega)
  induction t generalizing bytes with
  | nil =>
      injection h with h
      subst h
      simp
  | cons d t ih =>
      obtain ⟨own, more, hd, hmore, rfl⟩ := utf8_cons_eq_ok h
      rw [List.mem_append, List.mem_cons]
      refine or_congr ?_ (ih hmore)
      constructor
      · intro hmem
        obtain ⟨hval, -⟩ := eq_singleton_of_low hd (by omega) hmem
        exact Fin.ext (by omega)
      · rintro rfl
        rw [utf8?_low hc] at hd
        injection hd with hd
        rw [← hd]
        exact List.mem_singleton_self _

theorem eq_nil_of_utf8 {t : Text} (h : utf8 t = .ok []) : t = [] := by
  cases t with
  | nil => rfl
  | cons c t =>
      obtain ⟨own, more, hc, -, heq⟩ := utf8_cons_eq_ok h
      obtain ⟨rfl, -⟩ := List.append_eq_nil_iff.mp heq.symm
      simp only [CodePoint.utf8?] at hc
      repeat' split at hc
      all_goals cases hc

/-- A text of low code points is the only one with its bytes. -/
theorem eq_of_utf8_eq {low t : Text} (hlow : ∀ c ∈ low, c.val < 0x80) (h : utf8 t = utf8 low) :
    t = low := by
  induction low generalizing t with
  | nil => exact eq_nil_of_utf8 h
  | cons c low ih =>
      have hc := hlow c List.mem_cons_self
      have hlow' : ∀ c ∈ low, c.val < 0x80 := fun c' h' => hlow c' (List.mem_cons_of_mem c h')
      have hb : (UInt8.ofNat c.val).toNat = c.val := toNat_ofNat_of_lt (by omega)
      obtain ⟨rest, hrest⟩ : ∃ rest, utf8 low = .ok rest :=
        exists_utf8_iff.mpr fun c' h' => by rw [utf8?_low (hlow' c' h')]; rfl
      have hbytes : utf8 (c :: low) = .ok (UInt8.ofNat c.val :: rest) :=
        utf8_cons (utf8?_low hc) hrest
      rw [hbytes] at h
      cases t with
      | nil =>
          injection h with h
          cases h
      | cons d t =>
          obtain ⟨own, more, hd, hmore, heq⟩ := utf8_cons_eq_ok h
          cases own with
          | nil =>
              have hnil := utf8_cons hd (show utf8 [] = .ok [] from rfl)
              cases eq_nil_of_utf8 hnil
          | cons b own =>
              obtain ⟨rfl, heq⟩ := List.cons_eq_cons.mp heq
              obtain ⟨hval, hown⟩ := eq_singleton_of_low hd (by omega) List.mem_cons_self
              obtain ⟨-, rfl⟩ := List.cons_eq_cons.mp hown
              obtain rfl : d = c := Fin.ext (by omega)
              obtain rfl : rest = more := (List.cons_eq_cons.mp heq).2
              rw [ih hlow' (hmore.trans hrest.symm)]

-- =============================================================== reading

/-- A character does not go on past a low byte. -/
theorem leading?_append_low {m : UInt8} (hm : m.toNat < 0x80) (b : UInt8) (rest y : List UInt8) :
    leading? (b :: (rest ++ m :: y)) = leading? (b :: rest) := by
  have hnone : continuation? m = none := if_neg (by omega)
  rcases rest with _ | ⟨b₁, _ | ⟨b₂, _ | ⟨b₃, rest⟩⟩⟩ <;>
    rcases y with _ | ⟨y₁, _ | ⟨y₂, y⟩⟩ <;> simp [leading?, hnone]

/-- A low byte divides the bytes as its code point divides the text. -/
theorem ofUtf8_append_low {m : UInt8} (hm : m.toNat < 0x80) (x y : List UInt8) :
    ofUtf8 (x ++ m :: y) = ofUtf8 x ++ CodePoint.ofNat m.toNat :: ofUtf8 y := by
  induction h : x.length using Nat.strongRecOn generalizing x with
  | ind length ih =>
      cases x with
      | nil => simp only [List.nil_append, ofUtf8, ofUtf8After, leading?, if_pos hm]
      | cons b rest =>
          have hlead := leading?_append_low hm b rest y
          have hrest : rest.length < length := by
            rw [← h]
            exact Nat.lt_succ_self _
          rw [List.cons_append, ofUtf8, ofUtf8, ofUtf8After, ofUtf8After, hlead]
          cases hfound : leading? (b :: rest) with
          | none => exact congrArg (_ :: ·) (ih _ hrest rest rfl)
          | some found =>
              obtain ⟨c, more⟩ := found
              obtain ⟨hmore, -⟩ := utf8?_of_leading? hfound
              have hdrop : (rest.drop more).length < length := by
                rw [List.length_drop]
                omega
              show c :: ofUtf8After more (rest ++ m :: y) = c :: ofUtf8After more rest ++ _
              rw [ofUtf8After_eq, ofUtf8After_eq, List.drop_append_of_le_length hmore,
                ih _ hdrop _ rfl, List.cons_append]

namespace Disk

variable {t : Text} {n : Name}

-- =============================================================== keeping

theorem kept_of_utf8 {bytes : List UInt8} (h : utf8 t = .ok bytes) : kept t = ofUtf8 bytes := by
  unfold kept
  rw [h]

/-- A text is kept with its bytes. -/
theorem utf8_kept (t : Text) : utf8 (kept t) = utf8 t := by
  cases h : utf8 t with
  | ok bytes => rw [kept_of_utf8 h, utf8_ofUtf8]
  | error u =>
      unfold kept
      rw [h]
      exact h

theorem kept_kept (t : Text) : kept (kept t) = kept t := by
  cases h : utf8 t with
  | ok bytes => rw [kept_of_utf8 ((utf8_kept t).trans h), kept_of_utf8 h]
  | error u =>
      have hsame : kept t = t := by
        unfold kept
        rw [h]
      rw [hsame, hsame]

theorem encodable_kept : Encodable (kept t) ↔ Encodable t := by
  rw [← exists_utf8_iff, ← exists_utf8_iff, utf8_kept]

theorem kept_of_low (h : ∀ c ∈ t, c.val < 0x80) : kept t = t := eq_of_utf8_eq h (utf8_kept t)

theorem kept_eq_low_iff {low : Text} (h : ∀ c ∈ low, c.val < 0x80) : kept t = low ↔ t = low := by
  constructor
  · intro heq
    exact eq_of_utf8_eq h (by rw [← utf8_kept t, heq])
  · rintro rfl
    exact kept_of_low h

theorem low_dot : ∀ c ∈ dot, c.val < 0x80 := by
  intro c hc
  rw [List.mem_singleton.mp hc]
  decide

theorem low_dotDot : ∀ c ∈ dotDot, c.val < 0x80 :=
  List.forall_mem_cons.mpr ⟨by decide, low_dot⟩

theorem separator_mem_kept (h : Encodable t) : separator ∈ kept t ↔ separator ∈ t := by
  obtain ⟨bytes, hbytes⟩ := exists_utf8_iff.mpr h
  have hlow : separator.val < 0x80 := by decide
  rw [← mem_utf8_iff ((utf8_kept t).trans hbytes) hlow, ← mem_utf8_iff hbytes hlow]

theorem IsName.kept (h : IsName n) (hn : Encodable n) : IsName (kept n) :=
  ⟨fun hnil => h.ne_nil ((kept_eq_low_iff fun _ hc => absurd hc List.not_mem_nil).mp hnil),
    fun hmem => h.separator_not_mem ((separator_mem_kept hn).mp hmem)⟩

/-- The kept name stands for an entry as well. -/
theorem IsPlainName.kept (h : IsPlainName n) (hn : Encodable n) : IsPlainName (kept n) :=
  ⟨IsName.kept h.toIsName hn, fun hdot => h.ne_dot ((kept_eq_low_iff low_dot).mp hdot),
    fun hdotDot => h.ne_dotDot ((kept_eq_low_iff low_dotDot).mp hdotDot)⟩

-- ================================================================= paths

/-- A slash divides a path before and after. -/
theorem kept_append_separator {a b : Text} (ha : Encodable a) (hb : Encodable b) :
    kept (a ++ separator :: b) = kept a ++ separator :: kept b := by
  obtain ⟨x, hx⟩ := exists_utf8_iff.mpr ha
  obtain ⟨y, hy⟩ := exists_utf8_iff.mpr hb
  have hwhole : utf8 (a ++ separator :: b) = .ok (x ++ 0x2F :: y) :=
    utf8_append hx (utf8_cons (show separator.utf8? = some [0x2F] from rfl) hy)
  rw [kept_of_utf8 hwhole, kept_of_utf8 hx, kept_of_utf8 hy, ofUtf8_append_low (by decide)]
  rfl

theorem kept_joined {ns : List Name} (h : ∀ n ∈ ns, Encodable n) :
    kept (joined ns) = joined (ns.map kept) := by
  induction ns with
  | nil => rfl
  | cons n ns ih =>
      have hn : Encodable n := h n List.mem_cons_self
      have hns : ∀ m ∈ ns, Encodable m := fun m hm => h m (List.mem_cons_of_mem n hm)
      cases ns with
      | nil => rw [joined_singleton, List.map_singleton, joined_singleton]
      | cons m ns =>
          have hrest : Encodable (joined (m :: ns)) := by
            intro c hc
            rcases mem_joined hc with rfl | ⟨n', hn', hc⟩
            · rfl
            · exact hns n' hn' c hc
          rw [joined_cons_cons, kept_append_separator hn hrest, ih hns]
          exact (joined_cons_cons _ _ _).symm

end Disk

theorem joined_fields (t : Text) : joined (fields t) = t := by
  unfold fields
  induction t with
  | nil => rfl
  | cons c t ih =>
      by_cases hc : c = separator
      · subst hc
        rw [partsAt_cons_mark]
        cases ht : partsAt separator t with
        | nil => exact absurd ht (partsAt_ne_nil t)
        | cons part more =>
            rw [joined_cons_cons, ← ht, ih]
            rfl
      · obtain ⟨part, more, ht, hct⟩ := partsAt_cons_of_ne hc t
        rw [ht] at ih
        rw [hct, ← ih]
        cases more with
        | nil => rw [joined_singleton, joined_singleton]
        | cons next more => rw [joined_cons_cons, joined_cons_cons, List.cons_append]

theorem fields_joined {parts : List Text} (hne : parts ≠ [])
    (h : ∀ part ∈ parts, separator ∉ part) :
    fields (joined parts) = parts := by
  unfold fields
  induction parts with
  | nil => exact absurd rfl hne
  | cons part parts ih =>
      have hpart := partsAt_of_not_mem (h part List.mem_cons_self)
      cases parts with
      | nil => rw [joined_singleton, hpart]
      | cons next parts =>
          rw [joined_cons_cons, partsAt_append, hpart,
            ih (List.cons_ne_nil _ _) fun n hn => h n (List.mem_cons_of_mem part hn),
            List.singleton_append]

namespace Disk

variable {t : Text}

/-- Keeping a path is keeping each of its names. -/
theorem names_kept (h : Encodable t) : names (kept t) = (names t).map kept := by
  have hparts : ∀ part ∈ fields t, Encodable part := fun part hpart c hc =>
    h c (mem_of_mem_partsAt hpart hc)
  have hfields : fields (kept t) = (fields t).map kept := by
    have hwhole : kept t = joined ((fields t).map kept) := by
      rw [← kept_joined hparts, joined_fields]
    rw [hwhole]
    refine fields_joined (by simpa [fields] using partsAt_ne_nil t) fun part hpart => ?_
    obtain ⟨part, hmem, rfl⟩ := List.mem_map.mp hpart
    rw [separator_mem_kept (hparts part hmem)]
    exact not_mem_of_mem_partsAt hmem
  unfold names
  rw [hfields, List.filter_map]
  refine congrArg (List.map kept) (List.filter_congr fun part _ => ?_)
  have hempty : kept part = [] ↔ part = [] :=
    kept_eq_low_iff fun _ hc => absurd hc List.not_mem_nil
  cases part with
  | nil => rfl
  | cons c part =>
      have hne : kept (c :: part) ≠ [] := fun heq => by cases hempty.mp heq
      simpa using hne

/-- The names of a kept path are kept as they are. -/
theorem kept_of_mem_names_kept {path : Text} (h : Encodable path) {n : Name}
    (hn : n ∈ names (kept path)) : kept n = n := by
  rw [names_kept h] at hn
  obtain ⟨n, -, rfl⟩ := List.mem_map.mp hn
  exact kept_kept n

-- ============================================================= refusals

/-- What the system does not refuse has bytes, and no NUL among them. -/
theorem refusal?_eq_none_iff : refusal? t = none ↔ Encodable t ∧ 0 ∉ t := by
  have hlow : (0 : CodePoint).val < 0x80 := by decide
  unfold refusal?
  cases h : utf8 t with
  | error u =>
      refine iff_of_false nofun fun hboth => ?_
      obtain ⟨bytes, hbytes⟩ := exists_utf8_iff.mpr hboth.1
      rw [h] at hbytes
      cases hbytes
  | ok bytes =>
      have hnul : bytes.contains 0 = true ↔ (0 : CodePoint) ∈ t := by
        rw [List.contains_iff_mem]
        exact mem_utf8_iff h hlow
      dsimp only
      split
      · next hmem => exact iff_of_false nofun fun hboth => hboth.2 (hnul.mp hmem)
      · next hmem =>
        exact iff_of_true rfl ⟨exists_utf8_iff.mp ⟨bytes, h⟩, fun hzero => hmem (hnul.mpr hzero)⟩

end Disk

end PathResolution
