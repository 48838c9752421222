/-
What is relied on in the libraries of the command line.

`Libraries.Documented` says it, one documented behaviour a field, and says nothing
of what the libraries do besides: how other arguments are read, or what becomes of
escapes. A reader of arguments goes by what they spell (`Spells`). The output carries
a text as it is if it has no escape and no surrogate (`IsCarried`), and the error
stream if it is plain (`IsPlain`) and no name stands between colons in it for which
there is a picture (`hasCode`). Which names these are is left open.

The messages about paths are of that kind if the paths in them are
(`IsMentionable.failureText`). That takes a look at the texts of all error numbers,
and the look is at their bytes and not at their characters, because that is much
less to compute.
-/
import Mathlib.Data.Nat.Digits.Defs
import PathResolution.CommandLine.Run
import PathResolution.Proofs.Configuration.Numerals

namespace PathResolution

-- ============================================================= characters

/-- A code point that moves a cursor or rings a bell instead of being shown. -/
def CodePoint.isControl (c : CodePoint) : Bool :=
  decide (c.val < 0x20) || decide (0x7F ≤ c.val) && decide (c.val ≤ 0x9F)

/-- A character is its only byte, or one of its bytes is beyond the first 128. -/
theorem utf8EncodeChar_cases (c : Char) :
    String.utf8EncodeChar c = [UInt8.ofNat c.toNat] ∧ c.toNat < 0x80
      ∨ ∃ b ∈ String.utf8EncodeChar c, 0x80 ≤ b.toNat := by
  by_cases hlow : c.toNat ≤ 0x7F
  · exact .inl ⟨if_pos hlow, by omega⟩
  · refine .inr ⟨UInt8.ofNat (c.toNat % 64 + 128), ?_, ?_⟩
    · show _ ∈ if c.toNat ≤ 0x7F then _ else _
      rw [if_neg hlow]
      split
      · simp
      · split <;> simp
    · rw [UInt8.toNat_ofNat', Nat.mod_eq_of_lt (by omega)]
      omega

theorem ofChar_eq_of_ascii {chars : List Char}
    (h : ∀ b ∈ chars.flatMap String.utf8EncodeChar, b.toNat < 0x80) :
    chars.map CodePoint.ofChar
      = (chars.flatMap String.utf8EncodeChar).map fun b => CodePoint.ofNat b.toNat := by
  induction chars with
  | nil => rfl
  | cons c rest ih =>
      rw [List.flatMap_cons] at h ⊢
      rcases utf8EncodeChar_cases c with ⟨honly, hlow⟩ | ⟨b, hb, hhigh⟩
      · rw [honly, List.map_append, ← ih fun b hb => h b (List.mem_append_right _ hb)]
        refine congrArg (· :: rest.map CodePoint.ofChar) (Fin.ext ?_)
        have hbyte : (UInt8.ofNat c.toNat).toNat = c.toNat :=
          UInt8.toNat_ofNat'.trans (Nat.mod_eq_of_lt (by omega))
        show c.toNat = (UInt8.ofNat c.toNat).toNat % 0x110000
        rw [hbyte, Nat.mod_eq_of_lt (by omega)]
      · exact absurd (h b (List.mem_append_left _ hb)) (by omega)

/-- A string that has only characters of one byte is its bytes. -/
theorem text_eq_of_ascii {known : String}
    (h : ∀ b ∈ known.toByteArray.data.toList, b.toNat < 0x80) :
    text known = known.toByteArray.data.toList.map fun b => CodePoint.ofNat b.toNat := by
  have hbytes : known.toByteArray.data.toList = known.toList.flatMap String.utf8EncodeChar := by
    conv => lhs; rw [← String.ofList_toList (s := known)]
    rw [String.toByteArray_ofList, List.utf8Encode, List.data_toByteArray]
  rw [hbytes] at h ⊢
  exact ofChar_eq_of_ascii h

namespace CommandLine

variable {t t' : Text} {c : CodePoint}

-- =========================================================== plain texts

/-- A text that a stream without a screen carries as it is. -/
def IsCarried (t : Text) : Prop := 0x1B ∉ t ∧ ∀ c ∈ t, c.isSurrogate = false

instance : DecidablePred IsCarried := fun t =>
  decidable_of_iff (t.all fun c => c != 0x1B && !c.isSurrogate) (by
    simp only [IsCarried, List.all_eq_true, Bool.and_eq_true, bne_iff_ne, Bool.not_eq_true']
    exact ⟨fun h => ⟨fun hmem => (h _ hmem).1 rfl, fun c hc => (h c hc).2⟩,
      fun h c hc => ⟨fun heq => h.1 (heq ▸ hc), h.2 c hc⟩⟩)

/-- No code point is a control or a surrogate. -/
def IsPlain (t : Text) : Prop := ∀ c ∈ t, c.isControl = false ∧ c.isSurrogate = false

instance : DecidablePred IsPlain := fun t =>
  decidable_of_iff (t.all fun c => !c.isControl && !c.isSurrogate) (by simp [IsPlain])

theorem IsPlain.append (h : IsPlain t) (h' : IsPlain t') : IsPlain (t ++ t') :=
  fun c hc => (List.mem_append.mp hc).elim (h c) (h' c)

-- ========================================================= names in colons

variable {isPicture : Text → Bool}

/-- Whether a name in colons stands in a text, before which this was read since the
last colon, unless a blank was. -/
def hasCodeAfter (isPicture : Text → Bool) : (name : Option Text) → Text → Bool
  | _, [] => false
  | name, c :: rest =>
    if c = 0x3A then name.any isPicture || hasCodeAfter isPicture (some []) rest
    else hasCodeAfter isPicture (if c.isBlank then none else name.map (· ++ [c])) rest

/-- Whether the name of a picture stands between two colons, without a blank in
it. -/
def hasCode (isPicture : Text → Bool) (t : Text) : Bool := hasCodeAfter isPicture none t

/-- A blank ends what a colon has begun. -/
theorem hasCodeAfter_append_blank (hblank : c.isBlank) (name : Option Text) (t t' : Text) :
    hasCodeAfter isPicture name (t ++ c :: t')
      = (hasCodeAfter isPicture name t || hasCode isPicture t') := by
  have hcolon : c ≠ 0x3A := by
    rintro rfl
    exact absurd hblank (by decide)
  induction t generalizing name with
  | nil =>
      show hasCodeAfter isPicture name (c :: t') = hasCode isPicture t'
      rw [hasCodeAfter, if_neg hcolon, if_pos hblank]
      rfl
  | cons d rest ih =>
      rw [List.cons_append, hasCodeAfter, hasCodeAfter, ih, ih]
      split
      · rw [Bool.or_assoc]
      · rfl

theorem hasCodeAfter_of_not_mem (h : 0x3A ∉ t) (name : Option Text) :
    hasCodeAfter isPicture name t = false := by
  induction t generalizing name with
  | nil => rfl
  | cons d rest ih =>
      obtain ⟨hd, hrest⟩ := not_or.mp (List.mem_cons.not.mp h)
      rw [hasCodeAfter, if_neg (Ne.symm hd), ih hrest]

/-- A text without a name in colons is one without the name of a picture. -/
theorem hasCodeAfter_of_no_name {name : Option Text}
    (h : hasCodeAfter (fun _ => true) name t = false) : hasCodeAfter isPicture name t = false := by
  induction t generalizing name with
  | nil => rfl
  | cons d rest ih =>
      rw [hasCodeAfter] at h ⊢
      split at h
      · obtain ⟨hname, hrest⟩ := Bool.or_eq_false_iff.mp h
        cases name with
        | none => rw [if_pos ‹_›, Option.any_none, Bool.false_or, ih hrest]
        | some read => cases hname
      · rw [if_neg ‹_›, ih h]

-- ================================================================ errors

theorem isDigit_of_mem_decimalNat {n : Nat} (hc : c ∈ decimalNat n) :
    0x30 ≤ c.val ∧ c.val ≤ 0x39 := by
  obtain ⟨char, hchar, rfl⟩ := List.mem_map.mp hc
  have hdigit := Nat.isDigit_of_mem_toDigits (by decide) (le_refl 10) hchar
  simp only [Char.isDigit, Bool.and_eq_true, decide_eq_true_eq] at hdigit
  exact hdigit

theorem isPlain_of_digits (h : ∀ c ∈ t, 0x30 ≤ c.val ∧ c.val ≤ 0x39) : IsPlain t := by
  intro c hc
  obtain ⟨hlow, hhigh⟩ := h c hc
  simp only [CodePoint.isControl, CodePoint.isSurrogate, Bool.or_eq_false_iff,
    Bool.and_eq_false_iff, decide_eq_false_iff_not]
  omega

theorem not_mem_of_digits (h : ∀ c ∈ t, 0x30 ≤ c.val ∧ c.val ≤ 0x39) : 0x3A ∉ t :=
  fun hmem => absurd (h _ hmem).2 (by decide)

/-- The names of error numbers are plain, and no name stands between colons in
them. -/
theorem named_plain {n : Nat} {known : String} (h : Errno.named? n = some known) :
    IsPlain (text known) ∧ hasCode isPicture (text known) = false := by
  have hknown : n < 134 := by
    refine Decidable.byContradiction fun hn => ?_
    obtain ⟨m, rfl⟩ := Nat.exists_eq_add_of_le' (not_lt.mp hn)
    cases h
  have htable : (List.range 134).all fun n => (Errno.named? n).all fun known =>
      let bytes := known.toByteArray.data.toList
      bytes.all (fun b => decide (0x20 ≤ b.toNat) && decide (b.toNat < 0x7F))
        && !hasCode (fun _ => true) (bytes.map fun b => CodePoint.ofNat b.toNat) := by
    decide +kernel
  have hknown := List.all_eq_true.mp htable n (List.mem_range.mpr hknown)
  simp only [h, Option.all_some, Bool.and_eq_true, List.all_eq_true, decide_eq_true_eq,
    Bool.not_eq_true'] at hknown
  obtain ⟨hbytes, hcode⟩ := hknown
  rw [text_eq_of_ascii fun b hb => Nat.lt_trans (hbytes b hb).2 (by decide)]
  refine ⟨fun c hc => ?_, hasCodeAfter_of_no_name hcode⟩
  obtain ⟨b, hb, rfl⟩ := List.mem_map.mp hc
  obtain ⟨hlow, hhigh⟩ := hbytes b hb
  have hval : (CodePoint.ofNat b.toNat).val = b.toNat := Nat.mod_eq_of_lt (by omega)
  simp only [CodePoint.isControl, CodePoint.isSurrogate, Bool.or_eq_false_iff,
    Bool.and_eq_false_iff, decide_eq_false_iff_not, hval]
  omega

/-- So are the texts of all error numbers, those without a name included. -/
theorem message_plain (code : Errno) :
    IsPlain (Errno.message code) ∧ hasCode isPicture (Errno.message code) = false := by
  have hdecimal : IsPlain (decimal code) ∧ 0x3A ∉ decimal code := by
    cases code with
    | ofNat n =>
        have hdigits : ∀ c ∈ decimalNat n, _ := fun c => isDigit_of_mem_decimalNat
        exact ⟨isPlain_of_digits hdigits, not_mem_of_digits hdigits⟩
    | negSucc n =>
        have hdigits : ∀ c ∈ decimalNat (n + 1), _ := fun c => isDigit_of_mem_decimalNat
        exact ⟨List.forall_mem_cons.mpr ⟨by decide, isPlain_of_digits hdigits⟩,
          List.not_mem_cons_of_ne_of_not_mem (by decide) (not_mem_of_digits hdigits)⟩
  unfold Errno.message
  split
  · next known hknown =>
    split at hknown
    · cases hknown
    · exact named_plain hknown
  · have hunknown : IsPlain (text "Unknown error ") ∧ 0x3A ∉ text "Unknown error " := by decide
    refine ⟨hunknown.1.append hdecimal.1, hasCodeAfter_of_not_mem (fun hmem => ?_) none⟩
    exact (List.mem_append.mp hmem).elim hunknown.2 hdecimal.2

/-- The message about a path that fails. -/
def failureText (path : Text) (e : ResolutionError) : Text :=
  complaint (path ++ text ": " ++ Errno.message e.code)

/-- A path that a message can be about: it is plain, and no name of a picture stands
between colons in it, or between its last one and the colon that the message puts
behind it. -/
def IsMentionable (isPicture : Text → Bool) (path : Text) : Prop :=
  IsPlain path ∧ hasCode isPicture (path ++ [0x3A]) = false

instance : DecidablePred (IsMentionable isPicture) := fun path =>
  inferInstanceAs (Decidable (IsPlain path ∧ hasCode isPicture (path ++ [0x3A]) = false))

variable {path : Text}

theorem IsMentionable.failureText (h : IsMentionable isPicture path) (e : ResolutionError) :
    IsPlain (failureText path e) ∧ hasCode isPicture (failureText path e) = false := by
  obtain ⟨hplain, hcode⟩ : _ ∧ hasCode isPicture _ = false := message_plain e.code
  constructor
  · have hcommand : IsPlain (text "canonpath: ") := by decide
    have hcolon : IsPlain (text ": ") := by decide
    exact hcommand.append ((h.1.append hcolon).append hplain)
  · have hparts : CommandLine.failureText path e
        = text "canonpath:" ++ 0x20 :: ((path ++ [0x3A]) ++ 0x20 :: Errno.message e.code) := by
      show text "canonpath: " ++ (path ++ text ": " ++ _) = _
      simp only [List.append_assoc]
      rfl
    rw [hparts, hasCode, hasCodeAfter_append_blank (by decide), hasCode,
      hasCodeAfter_append_blank (by decide)]
    exact Bool.or_eq_false_iff.mpr ⟨rfl, Bool.or_eq_false_iff.mpr ⟨h.2, hcode⟩⟩

-- ============================================================= arguments

/-- A count in ASCII digits, without zeros in front. -/
structure IsCount (t : Text) (n : Nat) : Prop where
  numeral : NaturalNumeral t n
  digits : ∀ c ∈ t, 0x30 ≤ c.val ∧ c.val ≤ 0x39
  head : t.head? ≠ some 0x30

/-- Arguments that ask for an invocation. Options and paths are mixed; what stands
behind a double dash is a path; of several budgets the last one counts. -/
inductive Spells : List Text → Invocation → Prop
  | nothing : Spells [] ⟨[], false, false, false, none⟩
  | onlyPaths (paths : List Text) : Spells (text "--" :: paths) ⟨paths, false, false, false, none⟩
  | path {path : Text} {rest : List Text} {i : Invocation} :
      path.head? ≠ some 0x2D ∨ path = text "-" → Spells rest i →
      Spells (path :: rest) { i with paths := path :: i.paths }
  | exact {option : Text} {rest : List Text} {i : Invocation} :
      option = text "--exact" ∨ option = text "-e" → Spells rest i →
      Spells (option :: rest) { i with exact := true }
  | quiet {option : Text} {rest : List Text} {i : Invocation} :
      option = text "--quiet" ∨ option = text "-q" → Spells rest i →
      Spells (option :: rest) { i with quiet := true }
  | verbose {option : Text} {rest : List Text} {i : Invocation} :
      option = text "--verbose" ∨ option = text "-v" → Spells rest i →
      Spells (option :: rest) { i with verbose := true }
  | loopBudget {t : Text} {n : Nat} {rest : List Text} {i : Invocation} : IsCount t n → 1 ≤ n →
      Spells rest i →
      Spells (text "--loop-budget" :: t :: rest)
        { i with loopBudget := some (i.loopBudget.getD n) }

-- ============================================================= libraries

/-- What the libraries of a command line are documented to do, as far as it is
relied on, if these are the names that the error stream has pictures for. -/
structure Libraries.Documented (lib : Libraries) (isPicture : Text → Bool) : Prop where
  /-- Arguments with a path are read as what they spell. -/
  parse {arguments : List Text} {i : Invocation} :
    Spells arguments i → i.paths ≠ [] → lib.parse arguments = .ok i
  /-- The output carries text that has nothing in it for a screen. -/
  echo {t : Text} : IsCarried t → lib.echo t = .ok t
  /-- The error stream carries text that has nothing in it to be replaced. -/
  print {t : Text} : IsPlain t → hasCode isPicture t = false → lib.print t = .ok t
  /-- The error stream takes every text. -/
  printed (t : Text) : ∃ line, lib.print t = .ok line

end CommandLine

end PathResolution
