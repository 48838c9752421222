/-
Bytes of texts, and texts of bytes.

A text has bytes if each of its code points has (`exists_utf8_iff`), so the
parts of a text that has bytes have bytes too. Reading bytes as a text loses
none of them: the text has bytes, and they are the ones that were read
(`utf8_ofUtf8`). The proof follows the reader from one character to the next;
what it takes for a character is written as the bytes that it took
(`utf8?_of_leading?`), and a byte that starts no character stands for itself.
-/
import PathResolution.Proofs.Names
import PathResolution.Text.Utf8

namespace PathResolution

-- =============================================================== writing

/-- Every code point has bytes. -/
def Encodable (t : Text) : Prop := ∀ c ∈ t, c.utf8?.isSome

theorem utf8From_cons_of_some {c : CodePoint} {bytes : List UInt8} (h : c.utf8? = some bytes)
    (position : Nat) (rest : Text) :
    utf8From position (c :: rest) = (utf8From (position + 1) rest).map (bytes ++ ·) := by
  rw [utf8From, h]

/-- Where a text stands in a longer one matters only to what is said of its
errors. -/
theorem utf8From_eq_ok {t : Text} {bytes : List UInt8} {position : Nat}
    (h : utf8From position t = .ok bytes) (other : Nat) : utf8From other t = .ok bytes := by
  induction t generalizing bytes position other with
  | nil => exact h
  | cons c rest ih =>
      cases hc : c.utf8? with
      | none =>
          rw [utf8From, hc] at h
          cases h
      | some own =>
          rw [utf8From_cons_of_some hc] at h ⊢
          cases hrest : utf8From (position + 1) rest with
          | error u =>
              rw [hrest] at h
              cases h
          | ok more =>
              rw [hrest] at h
              rw [ih hrest (other + 1)]
              exact h

theorem utf8_cons {c : CodePoint} {own bytes : List UInt8} {rest : Text}
    (hc : c.utf8? = some own) (hrest : utf8 rest = .ok bytes) :
    utf8 (c :: rest) = .ok (own ++ bytes) := by
  have hshifted : utf8From 1 rest = .ok bytes := utf8From_eq_ok hrest 1
  unfold utf8
  rw [utf8From_cons_of_some hc, hshifted]
  rfl

/-- The bytes of a text start with those of its first code point. -/
theorem utf8_cons_eq_ok {c : CodePoint} {rest : Text} {bytes : List UInt8}
    (h : utf8 (c :: rest) = .ok bytes) :
    ∃ own more, c.utf8? = some own ∧ utf8 rest = .ok more ∧ bytes = own ++ more := by
  unfold utf8 at h
  cases hc : c.utf8? with
  | none =>
      rw [utf8From, hc] at h
      cases h
  | some own =>
      rw [utf8From_cons_of_some hc] at h
      cases hrest : utf8From 1 rest with
      | error u =>
          rw [hrest] at h
          cases h
      | ok more =>
          rw [hrest] at h
          injection h with h
          exact ⟨own, more, rfl, utf8From_eq_ok hrest 0, h.symm⟩

theorem exists_utf8_iff {t : Text} : (∃ bytes, utf8 t = .ok bytes) ↔ Encodable t := by
  induction t with
  | nil => exact ⟨fun _ _ hc => absurd hc List.not_mem_nil, fun _ => ⟨[], rfl⟩⟩
  | cons c rest ih =>
      constructor
      · intro h
        obtain ⟨bytes, h⟩ := h
        obtain ⟨own, more, hc, hrest, -⟩ := utf8_cons_eq_ok h
        intro c' hc'
        rcases List.mem_cons.mp hc' with rfl | hc'
        · rw [hc]
          rfl
        · exact ih.mp ⟨more, hrest⟩ c' hc'
      · intro h
        obtain ⟨own, hc⟩ := Option.isSome_iff_exists.mp (h c List.mem_cons_self)
        obtain ⟨more, hrest⟩ := ih.mpr fun c' hc' => h c' (List.mem_cons_of_mem c hc')
        exact ⟨own ++ more, utf8_cons hc hrest⟩

theorem utf8_append {a b : Text} {x y : List UInt8} (ha : utf8 a = .ok x) (hb : utf8 b = .ok y) :
    utf8 (a ++ b) = .ok (x ++ y) := by
  induction a generalizing x with
  | nil =>
      injection ha with ha
      rw [← ha]
      exact hb
  | cons c a ih =>
      obtain ⟨own, more, hc, hrest, rfl⟩ := utf8_cons_eq_ok ha
      rw [List.cons_append, List.append_assoc]
      exact utf8_cons hc (ih hrest)

-- =============================================================== reading

/-- Bytes that belong to a character already read are passed over. -/
theorem ofUtf8After_eq (skip : Nat) (bytes : List UInt8) :
    ofUtf8After skip bytes = ofUtf8 (bytes.drop skip) := by
  induction skip generalizing bytes with
  | zero => rfl
  | succ skip ih =>
      cases bytes with
      | nil => rfl
      | cons b rest => exact ih rest

theorem val_ofNat {n : Nat} (h : n < 0x110000) : (CodePoint.ofNat n).val = n :=
  Nat.mod_eq_of_lt h

theorem uint8_eq_of_toNat {b : UInt8} {n : Nat} (h : n = b.toNat) : UInt8.ofNat n = b := by
  rw [h]
  exact UInt8.ofNat_toNat

theorem continuation?_eq_some {b : UInt8} {n : Nat} (h : continuation? b = some n) :
    b.toNat = 0x80 + n ∧ n < 0x40 := by
  unfold continuation? at h
  split at h
  · injection h with h
    omega
  · cases h

theorem isSurrogate_ofNat {n : Nat} (h : n < 0x110000) (hn : ¬ (0xD800 ≤ n ∧ n ≤ 0xDFFF)) :
    (CodePoint.ofNat n).isSurrogate = false := by
  simp only [CodePoint.isSurrogate, val_ofNat h]
  simpa using hn

section

variable {b b₁ b₂ b₃ : UInt8} {n n₁ n₂ n₃ : Nat}

/-- A character of two bytes. -/
theorem utf8?_of_two (hlow : 0xC0 ≤ b.toNat) (hhigh : b.toNat < 0xE0)
    (h₁ : continuation? b₁ = some n₁) (hn : n = 0x40 * (b.toNat - 0xC0) + n₁) (hmin : 0x80 ≤ n) :
    (CodePoint.ofNat n).utf8? = some [b, b₁] := by
  obtain ⟨hb₁, hn₁⟩ := continuation?_eq_some h₁
  simp only [CodePoint.utf8?]
  rw [val_ofNat (by omega), if_neg (by omega), if_pos (by omega),
    uint8_eq_of_toNat (show _ = b.toNat by omega), uint8_eq_of_toNat (show _ = b₁.toNat by omega)]

/-- A character of three bytes. -/
theorem utf8?_of_three (hlow : 0xE0 ≤ b.toNat) (hhigh : b.toNat < 0xF0)
    (h₁ : continuation? b₁ = some n₁) (h₂ : continuation? b₂ = some n₂)
    (hn : n = 0x1000 * (b.toNat - 0xE0) + 0x40 * n₁ + n₂) (hmin : 0x800 ≤ n)
    (hsurrogate : ¬ (0xD800 ≤ n ∧ n ≤ 0xDFFF)) :
    (CodePoint.ofNat n).utf8? = some [b, b₁, b₂] := by
  obtain ⟨hb₁, hn₁⟩ := continuation?_eq_some h₁
  obtain ⟨hb₂, hn₂⟩ := continuation?_eq_some h₂
  have hmax : n < 0x10000 := by omega
  simp only [CodePoint.utf8?, isSurrogate_ofNat (show n < 0x110000 by omega) hsurrogate]
  rw [val_ofNat (by omega), if_neg (by omega), if_neg (by omega), if_neg (by omega),
    if_neg Bool.false_ne_true, if_pos hmax, uint8_eq_of_toNat (show _ = b.toNat by omega),
    uint8_eq_of_toNat (show _ = b₁.toNat by omega), uint8_eq_of_toNat (show _ = b₂.toNat by omega)]

/-- A character of four bytes. -/
theorem utf8?_of_four (hlow : 0xF0 ≤ b.toNat) (h₁ : continuation? b₁ = some n₁)
    (h₂ : continuation? b₂ = some n₂) (h₃ : continuation? b₃ = some n₃)
    (hn : n = 0x40000 * (b.toNat - 0xF0) + 0x1000 * n₁ + 0x40 * n₂ + n₃) (hmin : 0x10000 ≤ n)
    (hmax : n ≤ 0x10FFFF) : (CodePoint.ofNat n).utf8? = some [b, b₁, b₂, b₃] := by
  obtain ⟨hb₁, hn₁⟩ := continuation?_eq_some h₁
  obtain ⟨hb₂, hn₂⟩ := continuation?_eq_some h₂
  obtain ⟨hb₃, hn₃⟩ := continuation?_eq_some h₃
  have hsurrogate : ¬ (0xD800 ≤ n ∧ n ≤ 0xDFFF) := by omega
  simp only [CodePoint.utf8?, isSurrogate_ofNat (show n < 0x110000 by omega) hsurrogate]
  rw [val_ofNat (by omega), if_neg (by omega), if_neg (by omega), if_neg (by omega),
    if_neg Bool.false_ne_true, if_neg (by omega), uint8_eq_of_toNat (show _ = b.toNat by omega),
    uint8_eq_of_toNat (show _ = b₁.toNat by omega), uint8_eq_of_toNat (show _ = b₂.toNat by omega),
    uint8_eq_of_toNat (show _ = b₃.toNat by omega)]

end

/-- What is taken for a character is written as the bytes that were taken. -/
theorem utf8?_of_leading? {b : UInt8} {rest : List UInt8} {c : CodePoint} {more : Nat}
    (h : leading? (b :: rest) = some (c, more)) :
    more ≤ rest.length ∧ c.utf8? = some (b :: rest.take more) := by
  simp only [leading?] at h
  split at h
  · next hone =>
    cases h
    refine ⟨Nat.zero_le _, ?_⟩
    simp only [CodePoint.utf8?]
    rw [val_ofNat (by omega), if_pos hone, uint8_eq_of_toNat rfl, List.take_zero]
  split at h
  · cases h
  split at h
  · -- two bytes
    split at h
    case h_2 => cases h
    case h_1 b₁ tail =>
      obtain ⟨n₁, h₁, h⟩ := Option.bind_eq_some_iff.mp h
      obtain ⟨hmin, h⟩ := Option.ite_none_right_eq_some.mp h
      cases h
      refine ⟨Nat.le_add_left _ _, ?_⟩
      exact utf8?_of_two (by omega) (by omega) h₁ rfl hmin
  split at h
  · -- three bytes
    split at h
    case h_2 => cases h
    case h_1 b₁ b₂ tail =>
      obtain ⟨n₁, h₁, h⟩ := Option.bind_eq_some_iff.mp h
      obtain ⟨n₂, h₂, h⟩ := Option.bind_eq_some_iff.mp h
      obtain ⟨⟨hmin, hsurrogate⟩, h⟩ := Option.ite_none_right_eq_some.mp h
      cases h
      refine ⟨Nat.le_add_left _ _, ?_⟩
      exact utf8?_of_three (by omega) (by omega) h₁ h₂ rfl hmin hsurrogate
  split at h
  · -- four bytes
    split at h
    case h_2 => cases h
    case h_1 b₁ b₂ b₃ tail =>
      obtain ⟨n₁, h₁, h⟩ := Option.bind_eq_some_iff.mp h
      obtain ⟨n₂, h₂, h⟩ := Option.bind_eq_some_iff.mp h
      obtain ⟨n₃, h₃, h⟩ := Option.bind_eq_some_iff.mp h
      obtain ⟨⟨hmin, hmax⟩, h⟩ := Option.ite_none_right_eq_some.mp h
      cases h
      refine ⟨Nat.le_add_left _ _, ?_⟩
      exact utf8?_of_four (by omega) h₁ h₂ h₃ rfl hmin hmax
  · cases h

/-- A byte that starts no character is written as itself. -/
theorem utf8?_of_leading?_eq_none {b : UInt8} {rest : List UInt8}
    (h : leading? (b :: rest) = none) : (CodePoint.ofNat (0xDC00 + b.toNat)).utf8? = some [b] := by
  have hhigh : 0x80 ≤ b.toNat := by
    apply Nat.le_of_not_lt
    intro hlow
    simp only [leading?, if_pos hlow] at h
    cases h
  have hb : b.toNat < 256 := b.toNat_lt
  simp only [CodePoint.utf8?]
  rw [val_ofNat (by omega), if_neg (by omega), if_neg (by omega), if_pos (by omega),
    uint8_eq_of_toNat (show _ = b.toNat by omega)]

/-- Reading loses no byte. -/
theorem utf8_ofUtf8 (bytes : List UInt8) : utf8 (ofUtf8 bytes) = .ok bytes := by
  induction h : bytes.length using Nat.strongRecOn generalizing bytes with
  | ind length ih =>
      cases bytes with
      | nil => rfl
      | cons b rest =>
          have hrest : rest.length < length := by
            rw [← h]
            exact Nat.lt_succ_self _
          cases hlead : leading? (b :: rest) with
          | none =>
              have hread : ofUtf8 (b :: rest)
                  = CodePoint.ofNat (0xDC00 + b.toNat) :: ofUtf8 rest := by
                simp only [ofUtf8, ofUtf8After, hlead]
              rw [hread]
              exact utf8_cons (utf8?_of_leading?_eq_none hlead) (ih _ hrest rest rfl)
          | some found =>
              obtain ⟨c, more⟩ := found
              obtain ⟨hmore, hc⟩ := utf8?_of_leading? hlead
              have hread : ofUtf8 (b :: rest) = c :: ofUtf8 (rest.drop more) := by
                rw [ofUtf8, ofUtf8After, hlead]
                exact congrArg (c :: ·) (ofUtf8After_eq more rest)
              have hdrop : (rest.drop more).length < length := by
                rw [List.length_drop]
                omega
              rw [hread]
              have hwhole := utf8_cons hc (ih _ hdrop (rest.drop more) rfl)
              rwa [List.cons_append, List.take_append_drop] at hwhole

theorem encodable_ofUtf8 (bytes : List UInt8) : Encodable (ofUtf8 bytes) :=
  exists_utf8_iff.mp ⟨bytes, utf8_ofUtf8 bytes⟩

-- ================================================================ paths

theorem mem_of_mem_partsAt {mark c : CodePoint} {t part : Text} (h : part ∈ partsAt mark t)
    (hc : c ∈ part) : c ∈ t := by
  induction t generalizing part with
  | nil =>
      rw [partsAt, List.mem_singleton] at h
      exact h ▸ hc
  | cons d t ih =>
      by_cases hd : d = mark
      · rw [hd, partsAt_cons_mark, List.mem_cons] at h
        rcases h with rfl | h
        · cases hc
        · exact List.mem_cons_of_mem d (ih h hc)
      · obtain ⟨first, more, ht, hdt⟩ := partsAt_cons_of_ne hd t
        rw [hdt, List.mem_cons] at h
        rcases h with rfl | h
        · rcases List.mem_cons.mp hc with rfl | hc
          · exact List.mem_cons_self
          · exact List.mem_cons_of_mem d (ih (ht ▸ List.mem_cons_self) hc)
        · exact List.mem_cons_of_mem d (ih (ht ▸ List.mem_cons_of_mem first h) hc)

/-- The names of a path that has bytes have bytes. -/
theorem Encodable.of_mem_names {path : Text} {n : Name} (h : Encodable path)
    (hn : n ∈ names path) : Encodable n := by
  intro c hc
  unfold names at hn
  exact h c (mem_of_mem_partsAt (List.mem_filter.mp hn).1 hc)

theorem mem_joined {c : CodePoint} {ns : List Name} (h : c ∈ joined ns) :
    c = separator ∨ ∃ n ∈ ns, c ∈ n := by
  induction ns with
  | nil => cases h
  | cons n ns ih =>
      cases ns with
      | nil =>
          rw [joined_singleton] at h
          exact .inr ⟨n, List.mem_cons_self, h⟩
      | cons m ns =>
          rw [joined_cons_cons, List.mem_append, List.mem_cons] at h
          rcases h with h | rfl | h
          · exact .inr ⟨n, List.mem_cons_self, h⟩
          · exact .inl rfl
          · rcases ih h with h | ⟨n', hn', h⟩
            · exact .inl h
            · exact .inr ⟨n', List.mem_cons_of_mem n hn', h⟩

/-- A path that is written from names that have bytes has bytes. -/
theorem encodable_pathOf {ns : List Name} (h : ∀ n ∈ ns, Encodable n) :
    Encodable (pathOf ns) := by
  intro c hc
  rcases List.mem_cons.mp hc with rfl | hc
  · rfl
  · rcases mem_joined hc with rfl | ⟨n, hn, hc⟩
    · rfl
    · exact h n hn c hc

end PathResolution
