/-
The grammar of integers.

A numeral is digits of any script with single underscores between them, an
optional sign in front, and blanks around the whole. Reading a text finds the
number that the grammar gives it, if the grammar gives it one, and nothing
otherwise (`integer?_eq_some_iff`): the recursion that reads digits follows the
grammar (`digitValues?_eq_some_iff`), and trimming finds the number between the
blanks (`trimBlanks_append`), because neither its first nor its last code point
is one.
-/
import Mathlib.Data.List.TakeWhile
import Mathlib.Data.Nat.Digits.Defs
import PathResolution.Text.Numeral

namespace PathResolution

variable {c : CodePoint} {t : Text} {d : Nat} {ds : List Nat} {n : Int}

-- ================================================================ digits

/-- A code point is a digit with this value in some script. -/
def CodePoint.IsDigit (c : CodePoint) (d : Nat) : Prop :=
  d < 10 ∧ ∃ first ∈ digitZeros, c.val = first + d

/-- The digits of two scripts are apart. -/
theorem digitZeros_apart : digitZeros.Pairwise fun a b => a + 10 ≤ b := by decide

theorem digit?_eq_some_iff : c.digit? = some d ↔ c.IsDigit d := by
  unfold CodePoint.digit? CodePoint.IsDigit
  rw [Option.map_eq_some_iff]
  constructor
  · rintro ⟨first, hfound, rfl⟩
    have hrange := List.find?_some hfound
    simp only [Bool.and_eq_true, decide_eq_true_eq] at hrange
    exact ⟨by omega, first, List.mem_of_find?_eq_some hfound, by omega⟩
  · rintro ⟨hd, first, hmem, hc⟩
    refine ⟨first, List.find?_eq_some_iff_append.mpr ⟨by simp; omega, ?_⟩, by omega⟩
    obtain ⟨before, after, hzeros⟩ := List.append_of_mem hmem
    refine ⟨before, after, hzeros, fun earlier hearlier => ?_⟩
    have happart := digitZeros_apart
    rw [hzeros, List.pairwise_append] at happart
    have hle := happart.2.2 earlier hearlier first List.mem_cons_self
    simp only [Bool.not_eq_true', Bool.and_eq_false_iff, decide_eq_false_iff_not]
    omega

/-- The values of digits, one after the other, with single underscores allowed
between two of them. -/
inductive DigitRun : Text → List Nat → Prop
  | last {c : CodePoint} {d : Nat} : c.IsDigit d → DigitRun [c] [d]
  | next {c : CodePoint} {d : Nat} {t : Text} {ds : List Nat} : c.IsDigit d → DigitRun t ds →
      DigitRun (c :: t) (d :: ds)
  | underscore {c : CodePoint} {d : Nat} {t : Text} {ds : List Nat} : c.IsDigit d →
      DigitRun t ds → DigitRun (c :: 0x5F :: t) (d :: ds)

theorem DigitRun.exists_cons (h : DigitRun t ds) : ∃ c rest d, t = c :: rest ∧ c.IsDigit d := by
  cases h with
  | last hd => exact ⟨_, _, _, rfl, hd⟩
  | next hd _ => exact ⟨_, _, _, rfl, hd⟩
  | underscore hd _ => exact ⟨_, _, _, rfl, hd⟩

theorem DigitRun.exists_getLast (h : DigitRun t ds) :
    ∃ c d, t.getLast? = some c ∧ c.IsDigit d := by
  induction h with
  | last hd => exact ⟨_, _, rfl, hd⟩
  | @next c d t ds _ hrun ih =>
      obtain ⟨first, rest, -, rfl, -⟩ := hrun.exists_cons
      exact ih
  | @underscore c d t ds _ hrun ih =>
      obtain ⟨first, rest, -, rfl, -⟩ := hrun.exists_cons
      exact ih

theorem not_isDigit_of_digit? (h : c.digit? = none) (d : Nat) : ¬ c.IsDigit d := by
  rw [← digit?_eq_some_iff, h]
  exact nofun

theorem digitValues?_cons_cons (c u : CodePoint) (rest : Text) :
    digitValues? (c :: u :: rest) = c.digit?.bind fun d =>
      (if u = 0x5F then digitValues? rest else digitValues? (u :: rest)).map (d :: ·) := by
  rw [digitValues?]
  cases c.digit? with
  | none => rfl
  | some d => split <;> simp [Option.map_eq_bind]

theorem digitValues?_eq_some_iff : digitValues? t = some ds ↔ DigitRun t ds := by
  constructor
  · intro h
    induction hlength : t.length using Nat.strong_induction_on generalizing t ds with
    | _ length ih =>
        match t with
        | [] => cases h
        | [c] =>
            obtain ⟨d, hd, rfl⟩ := Option.map_eq_some_iff.mp h
            exact .last (digit?_eq_some_iff.mp hd)
        | c :: u :: rest =>
            rw [digitValues?_cons_cons, Option.bind_eq_some_iff] at h
            obtain ⟨d, hd, h⟩ := h
            obtain ⟨ds', hds, rfl⟩ := Option.map_eq_some_iff.mp h
            have hdigit := digit?_eq_some_iff.mp hd
            simp only [List.length_cons] at hlength
            split at hds
            · next hu => exact hu ▸ .underscore hdigit (ih rest.length (by omega) hds rfl)
            · exact .next hdigit (ih (rest.length + 1) (by omega) hds rfl)
  · intro h
    induction h with
    | last hd => simp [digitValues?, digit?_eq_some_iff.mpr hd]
    | @next c d t ds hd hrun ih =>
        -- what follows starts with a digit, which is no underscore
        obtain ⟨first, rest, value, rfl, hfirst⟩ := hrun.exists_cons
        have hne : first ≠ 0x5F := by
          rintro rfl
          exact not_isDigit_of_digit? (by decide) _ hfirst
        simp [digitValues?, digit?_eq_some_iff.mpr hd, if_neg hne, ih]
    | underscore hd hrun ih => simp [digitValues?, digit?_eq_some_iff.mpr hd, ih]

theorem ofDigits_eq (ds : List Nat) : ofDigits ds = Nat.ofDigits 10 ds.reverse := by
  rw [Nat.ofDigits_eq_foldr, List.foldr_reverse]
  unfold ofDigits
  congr 1
  funext n d
  simp [Nat.add_comm]

-- =============================================================== numbers

/-- A run of at most as many digits as a numeral may have, and the number that it
writes in tens. -/
def NaturalNumeral (t : Text) (n : Nat) : Prop :=
  ∃ ds, DigitRun t ds ∧ ds.length ≤ 4300 ∧ n = Nat.ofDigits 10 ds.reverse

theorem natural?_eq_some_iff {n : Nat} : natural? t = some n ↔ NaturalNumeral t n := by
  unfold natural? NaturalNumeral
  simp only [bind, Option.bind_eq_some_iff, digitValues?_eq_some_iff, maxNumeralDigits,
    ← ofDigits_eq]
  refine exists_congr fun ds => and_congr_right fun _ => ?_
  by_cases hlength : ds.length ≤ 4300 <;> simp [hlength, eq_comm]

/-- A natural number with a sign in front, if any. -/
inductive SignedNumeral : Text → Int → Prop
  | bare {t : Text} {n : Nat} : NaturalNumeral t n → SignedNumeral t n
  | plus {t : Text} {n : Nat} : NaturalNumeral t n → SignedNumeral (0x2B :: t) n
  | minus {t : Text} {n : Nat} : NaturalNumeral t n → SignedNumeral (0x2D :: t) (-n)

theorem signedNatural?_minus (t : Text) :
    signedNatural? (0x2D :: t) = (natural? t).bind fun n => some (-(n : Int)) := by
  rw [signedNatural?, if_pos rfl]
  cases natural? t <;> rfl

theorem signedNatural?_plus (t : Text) :
    signedNatural? (0x2B :: t) = (natural? t).bind fun n => some (n : Int) := by
  rw [signedNatural?, if_neg (by decide), if_pos rfl]
  cases natural? t <;> rfl

theorem signedNatural?_bare (hminus : c ≠ 0x2D) (hplus : c ≠ 0x2B) (t : Text) :
    signedNatural? (c :: t) = (natural? (c :: t)).bind fun n => some (n : Int) := by
  rw [signedNatural?, if_neg hminus, if_neg hplus]
  cases natural? (c :: t) <;> rfl

theorem signedNatural?_eq_some_iff : signedNatural? t = some n ↔ SignedNumeral t n := by
  constructor
  · intro h
    cases t with
    | nil => cases h
    | cons c rest =>
        by_cases hminus : c = 0x2D
        · rw [hminus, signedNatural?_minus, Option.bind_eq_some_iff] at h
          obtain ⟨m, hm, hn⟩ := h
          rw [hminus, ← Option.some.inj hn]
          exact .minus (natural?_eq_some_iff.mp hm)
        · by_cases hplus : c = 0x2B
          · rw [hplus, signedNatural?_plus, Option.bind_eq_some_iff] at h
            obtain ⟨m, hm, hn⟩ := h
            rw [hplus, ← Option.some.inj hn]
            exact .plus (natural?_eq_some_iff.mp hm)
          · rw [signedNatural?_bare hminus hplus, Option.bind_eq_some_iff] at h
            obtain ⟨m, hm, hn⟩ := h
            rw [← Option.some.inj hn]
            exact .bare (natural?_eq_some_iff.mp hm)
  · intro h
    cases h with
    | bare hm =>
        -- a digit comes first, which is no sign
        obtain ⟨c, rest, d, rfl, hd⟩ := hm.choose_spec.1.exists_cons
        have hminus : c ≠ 0x2D := by
          rintro rfl
          exact not_isDigit_of_digit? (by decide) _ hd
        have hplus : c ≠ 0x2B := by
          rintro rfl
          exact not_isDigit_of_digit? (by decide) _ hd
        rw [signedNatural?_bare hminus hplus, natural?_eq_some_iff.mpr hm, Option.bind_some]
    | plus hm => rw [signedNatural?_plus, natural?_eq_some_iff.mpr hm, Option.bind_some]
    | minus hm => rw [signedNatural?_minus, natural?_eq_some_iff.mpr hm, Option.bind_some]

-- ================================================================ blanks

/-- No digit is blank. -/
theorem blankRanges_without_digits :
    ∀ first ∈ digitZeros, ∀ r ∈ blankRanges, r.2 < first ∨ first + 10 ≤ r.1 := by decide

theorem isBlank_of_isDigit (h : c.IsDigit d) : c.isBlank = false := by
  obtain ⟨hd, first, hfirst, hc⟩ := h
  unfold CodePoint.isBlank inRanges
  rw [List.any_eq_false]
  intro r hr
  have happart := blankRanges_without_digits first hfirst r hr
  simp only [Bool.and_eq_true, decide_eq_true_eq]
  omega

/-- A text is what is left of it between blanks. -/
theorem exists_trimBlanks (t : Text) : ∃ before after, t = before ++ trimBlanks t ++ after
    ∧ (∀ c ∈ before, c.isBlank) ∧ ∀ c ∈ after, c.isBlank := by
  set rest := t.dropWhile CodePoint.isBlank with hrest
  refine ⟨t.takeWhile CodePoint.isBlank, (rest.reverse.takeWhile CodePoint.isBlank).reverse,
    ?_, fun c hc => List.mem_takeWhile_imp hc,
    fun c hc => List.mem_takeWhile_imp (List.mem_reverse.mp hc)⟩
  unfold trimBlanks
  rw [← hrest, List.append_assoc, ← List.reverse_append, List.takeWhile_append_dropWhile,
    List.reverse_reverse, hrest, List.takeWhile_append_dropWhile]

/-- Blanks around a text without blanks at its two ends are all that is
trimmed. -/
theorem trimBlanks_append {before body after : Text} (hbefore : ∀ c ∈ before, c.isBlank)
    (hafter : ∀ c ∈ after, c.isBlank) (hhead : ∀ c, body.head? = some c → c.isBlank = false)
    (hlast : ∀ c, body.getLast? = some c → c.isBlank = false) :
    trimBlanks (before ++ body ++ after) = body := by
  have hkept : ∀ l : Text, (∀ c, l.head? = some c → c.isBlank = false) →
      l.dropWhile CodePoint.isBlank = l := by
    intro l hl
    cases l with
    | nil => rfl
    | cons c l => rw [List.dropWhile_cons_of_neg (by simp [hl c rfl])]
  unfold trimBlanks
  rw [List.append_assoc, List.dropWhile_append_of_pos hbefore]
  cases body with
  | nil =>
      rw [List.nil_append, List.dropWhile_eq_nil_iff.mpr hafter]
      rfl
  | cons c body =>
      rw [hkept (c :: body ++ after) fun c' hc' => hhead c' hc', List.reverse_append,
        List.dropWhile_append_of_pos fun c hc => hafter c (List.mem_reverse.mp hc), hkept,
        List.reverse_reverse]
      intro c' hc'
      rw [List.head?_reverse] at hc'
      exact hlast c' hc'

-- ============================================================== numerals

/-- A number with blanks around it. -/
def Numeral (t : Text) (n : Int) : Prop :=
  ∃ before body after, t = before ++ body ++ after ∧ SignedNumeral body n
    ∧ (∀ c ∈ before, c.isBlank) ∧ ∀ c ∈ after, c.isBlank

/-- The first code point is a sign or a digit. -/
theorem SignedNumeral.isBlank_head (h : SignedNumeral t n) (hc : t.head? = some c) :
    c.isBlank = false := by
  cases h with
  | bare hm =>
      obtain ⟨first, rest, d, rfl, hd⟩ := hm.choose_spec.1.exists_cons
      exact Option.some.inj hc ▸ isBlank_of_isDigit hd
  | plus hm =>
      rw [← Option.some.inj hc]
      decide
  | minus hm =>
      rw [← Option.some.inj hc]
      decide

/-- The last code point is a digit. -/
theorem SignedNumeral.isBlank_last (h : SignedNumeral t n) (hc : t.getLast? = some c) :
    c.isBlank = false := by
  have hdigits : ∃ before run ds, t = before ++ run ∧ DigitRun run ds := by
    cases h with
    | bare hm => exact ⟨[], _, _, rfl, hm.choose_spec.1⟩
    | plus hm => exact ⟨[0x2B], _, _, rfl, hm.choose_spec.1⟩
    | minus hm => exact ⟨[0x2D], _, _, rfl, hm.choose_spec.1⟩
  obtain ⟨before, run, ds, rfl, hrun⟩ := hdigits
  obtain ⟨last, d, hlast, hd⟩ := hrun.exists_getLast
  rw [List.getLast?_append, hlast, Option.some_or] at hc
  exact Option.some.inj hc ▸ isBlank_of_isDigit hd

theorem integer?_eq_some_iff : integer? t = some n ↔ Numeral t n := by
  unfold integer?
  constructor
  · intro h
    obtain ⟨before, after, ht, hbefore, hafter⟩ := exists_trimBlanks t
    exact ⟨before, trimBlanks t, after, ht, signedNatural?_eq_some_iff.mp h, hbefore, hafter⟩
  · rintro ⟨before, body, after, rfl, hbody, hbefore, hafter⟩
    rw [trimBlanks_append hbefore hafter (fun _ => hbody.isBlank_head)
      fun _ => hbody.isBlank_last]
    exact signedNatural?_eq_some_iff.mpr hbody

/-- Digits of two scripts, between blanks of which one is not an ASCII blank. -/
example : Numeral ([0x3000] ++ text "+1_0" ++ [0x0665] ++ text " ") 105 :=
  integer?_eq_some_iff.mp (by decide)

/-- A text is the numeral of one number at most. -/
theorem Numeral.unique {m : Int} (hn : Numeral t n) (hm : Numeral t m) : n = m :=
  Option.some.inj ((integer?_eq_some_iff.mpr hn).symm.trans (integer?_eq_some_iff.mpr hm))

end PathResolution
