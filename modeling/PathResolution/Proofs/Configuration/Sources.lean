/-
Where the limits of a resolver come from.

A setting has one source: its argument, else its variable, else its default
(`SettingSource`). The source alone decides whether the setting is valid, which
value it has, and what is wrong with it, so a variable that is not the source can
hold anything. Values of variables are given by the grammar of integers
(Numerals.lean), and not by the reading of it.

The two settings are looked at in two rounds, the variables in the first and the
arguments in the second. That decides which of two errors is reported, and
nothing else: limits come about exactly if both sources are valid
(`configure_eq_ok_iff`), and every error is about one that is not
(`refuses_of_configure`).
-/
import PathResolution.Proofs.Configuration.Numerals
import PathResolution.Session

namespace PathResolution

-- =============================================================== sources

/-- Where the value of a setting comes from. -/
inductive SettingSource where
  | argument (n : Int)
  /-- The text of a variable that is set and not empty. -/
  | text (t : Text)
  | default
  deriving DecidableEq, Repr

namespace SettingSource

/-- An argument comes before a variable that is set and not empty, and that comes
before the default. -/
def of (argument : Option Int) (set? : Option Text) : SettingSource :=
  match argument, set? with
  | some n, _ => .argument n
  | none, some (c :: t) => .text (c :: t)
  | none, some [] | none, none => .default

/-- What the source gives a setting with this minimum and this default. -/
def Gives (minimum default : Nat) : SettingSource → Int → Prop
  | .argument n, value => minimum ≤ n ∧ value = n
  | .text t, value => Numeral t value ∧ minimum ≤ value
  | .default, value => value = default

def IsValid (minimum : Nat) : SettingSource → Prop
  | .argument n => minimum ≤ n
  | .text t => ∃ n, Numeral t n ∧ minimum ≤ n
  | .default => True

/-- What is wrong with a source, as an error says it. -/
inductive Refuses (name : Text) (minimum : Nat) (tooSmall : Int → ConfigurationError) :
    SettingSource → ConfigurationError → Prop
  | argument (n : Int) : n < minimum → Refuses name minimum tooSmall (.argument n) (tooSmall n)
  | notAnInteger (t : Text) : (∀ n, ¬ Numeral t n) →
      Refuses name minimum tooSmall (.text t) (.notAnInteger name t)
  | belowMinimum (t : Text) (n : Int) : Numeral t n → n < minimum →
      Refuses name minimum tooSmall (.text t) (.belowMinimum name minimum n)

theorem isValid_iff_exists_gives {source : SettingSource} {minimum : Nat} (default : Nat) :
    source.IsValid minimum ↔ ∃ value, source.Gives minimum default value := by
  cases source with
  | argument n => exact ⟨fun h => ⟨n, h, rfl⟩, fun ⟨_, h, _⟩ => h⟩
  | text t => exact Iff.rfl
  | default => exact ⟨fun _ => ⟨default, rfl⟩, fun _ => trivial⟩

end SettingSource

-- =============================================================== reading

/-- What comes of a source before arguments are checked. -/
inductive SettingSource.Read (name : Text) (minimum : Nat) :
    SettingSource → Except ConfigurationError (Option Int) → Prop
  | argument (n : Int) : Read name minimum (.argument n) (.ok (some n))
  | default : Read name minimum .default (.ok none)
  | text (t : Text) (n : Int) : Numeral t n → minimum ≤ n →
      Read name minimum (.text t) (.ok (some n))
  | notAnInteger (t : Text) : (∀ n, ¬ Numeral t n) →
      Read name minimum (.text t) (.error (.notAnInteger name t))
  | belowMinimum (t : Text) (n : Int) : Numeral t n → n < minimum →
      Read name minimum (.text t) (.error (.belowMinimum name minimum n))

section

variable {source : SettingSource} {name : Text} {minimum default : Nat} {found : Option Int}
  {e : ConfigurationError}

theorem read_settingSource (argument : Option Int) (env : Environment) (name : Text)
    (minimum : Nat) :
    (SettingSource.of argument (env.get? name)).Read name minimum
      (settingSource argument env name minimum) := by
  cases argument with
  | some n => exact .argument n
  | none =>
      simp only [settingSource, Environment.integerAtLeast?, Environment.get]
      cases env.get? name with
      | none => exact .default
      | some t =>
          cases t with
          | nil => exact .default
          | cons c rest =>
              -- a text that is not empty is read as a number
              simp only [Option.getD_some]
              cases hread : integer? (c :: rest) with
              | none =>
                  refine .notAnInteger (c :: rest) fun n hn => ?_
                  rw [integer?_eq_some_iff.mpr hn] at hread
                  cases hread
              | some n =>
                  have hnumeral := integer?_eq_some_iff.mp hread
                  by_cases hmin : n < minimum
                  · simp only [if_pos hmin]
                    exact .belowMinimum (c :: rest) n hnumeral hmin
                  · simp only [if_neg hmin]
                    exact .text (c :: rest) n hnumeral (not_lt.mp hmin)

namespace SettingSource

/-- A source that can be read gives what is read there, unless that is too
small. -/
theorem Read.gives_iff (h : source.Read name minimum (.ok found)) (hdefault : minimum ≤ default)
    (value : Int) :
    source.Gives minimum default value
      ↔ minimum ≤ found.getD default ∧ value = found.getD default := by
  cases h with
  | argument n => exact Iff.rfl
  | default => exact ⟨fun hvalue => ⟨Int.ofNat_le.mpr hdefault, hvalue⟩, And.right⟩
  | text t n hn hmin =>
      refine ⟨fun hgives => ⟨hmin, hgives.1.unique hn⟩, fun hvalue => ?_⟩
      obtain rfl : value = n := hvalue.2
      exact ⟨hn, hmin⟩

/-- What is too small and was not refused when it was read is the argument. -/
theorem Read.refuses_of_lt (h : source.Read name minimum (.ok found)) (hdefault : minimum ≤ default)
    (hsmall : found.getD default < minimum) (tooSmall : Int → ConfigurationError) :
    source.Refuses name minimum tooSmall (tooSmall (found.getD default)) := by
  cases h with
  | argument n => exact .argument n hsmall
  | default => exact absurd hsmall (not_lt.mpr (Int.ofNat_le.mpr hdefault))
  | text t n hn hmin => exact absurd hsmall (not_lt.mpr hmin)

/-- A source that cannot be read is refused for what it says. -/
theorem Read.refuses (h : source.Read name minimum (.error e))
    (tooSmall : Int → ConfigurationError) : source.Refuses name minimum tooSmall e := by
  cases h with
  | notAnInteger t ht => exact .notAnInteger t ht
  | belowMinimum t n hn hmin => exact .belowMinimum t n hn hmin

/-- A source that is refused gives nothing. -/
theorem Refuses.not_gives {tooSmall : Int → ConfigurationError}
    (h : source.Refuses name minimum tooSmall e) (value : Int) :
    ¬ source.Gives minimum default value := by
  intro hgives
  cases h with
  | argument n hn => exact absurd hgives.1 (not_le.mpr hn)
  | notAnInteger t ht => exact ht value hgives.1
  | belowMinimum t n hn hmin => exact absurd hgives.2 (not_le.mpr (hgives.1.unique hn ▸ hmin))

end SettingSource

end

-- ================================================================ limits

section

variable {loopBudget maxLinkSize : Option Int} {env : Environment} {limits : Limits}
  {e : ConfigurationError}

/-- The source of the loop budget. -/
def budgetSource (loopBudget : Option Int) (env : Environment) : SettingSource :=
  .of loopBudget (env.get? loopBudgetVariable)

/-- The source of the size of the buffer for links. -/
def sizeSource (maxLinkSize : Option Int) (env : Environment) : SettingSource :=
  .of maxLinkSize (env.get? maxLinkSizeVariable)

/-- How the reading of the two sources goes on. -/
theorem configure_eq (loopBudget maxLinkSize : Option Int) (env : Environment) :
    Limits.configure loopBudget maxLinkSize env
      = match settingSource loopBudget env loopBudgetVariable 1,
          settingSource maxLinkSize env maxLinkSizeVariable 2 with
        | .error e, _ => .error e
        | .ok _, .error e => .error e
        | .ok budget, .ok size =>
          if hb : budget.getD 9999 < 1 then .error (.budgetNotPositive (budget.getD 9999))
          else if hs : size.getD 4096 < 2 then .error (.linkSizeTooSmall (size.getD 4096))
          else .ok ⟨(budget.getD 9999).toNat, (size.getD 4096).toNat, by omega, by omega⟩ := by
  unfold Limits.configure
  cases settingSource loopBudget env loopBudgetVariable 1 with
  | error e => rfl
  | ok budget =>
      cases settingSource maxLinkSize env maxLinkSizeVariable 2 with
      | error e => rfl
      | ok size => rfl

/-- Limits come about from two sources that are valid, and are what these give. -/
theorem configure_eq_ok_iff :
    Limits.configure loopBudget maxLinkSize env = .ok limits
      ↔ (budgetSource loopBudget env).Gives 1 9999 limits.loopBudget
        ∧ (sizeSource maxLinkSize env).Gives 2 4096 limits.maxLinkSize := by
  rw [configure_eq]
  have hbudget := read_settingSource loopBudget env loopBudgetVariable 1
  have hsize := read_settingSource maxLinkSize env maxLinkSizeVariable 2
  cases hb : settingSource loopBudget env loopBudgetVariable 1 with
  | error e =>
      rw [hb] at hbudget
      refine ⟨nofun, fun hgives => ?_⟩
      exact absurd hgives.1 ((hbudget.refuses .budgetNotPositive).not_gives _)
  | ok budget =>
      rw [hb] at hbudget
      cases hs : settingSource maxLinkSize env maxLinkSizeVariable 2 with
      | error e =>
          rw [hs] at hsize
          refine ⟨nofun, fun hgives => ?_⟩
          exact absurd hgives.2 ((hsize.refuses .linkSizeTooSmall).not_gives _)
      | ok size =>
          rw [hs] at hsize
          unfold budgetSource sizeSource
          rw [hbudget.gives_iff (by decide), hsize.gives_iff (by decide)]
          obtain ⟨budgetLimit, sizeLimit, _, _⟩ := limits
          simp only [Nat.cast_ofNat, Nat.cast_one]
          split
          · exact ⟨nofun, by omega⟩
          · split
            · exact ⟨nofun, by omega⟩
            · rw [Except.ok.injEq, Limits.mk.injEq]
              omega

/-- Limits depend on variables only where there are no arguments. -/
theorem configure_congr {env' : Environment}
    (hbudget : loopBudget = none → env'.get? loopBudgetVariable = env.get? loopBudgetVariable)
    (hsize : maxLinkSize = none → env'.get? maxLinkSizeVariable = env.get? maxLinkSizeVariable) :
    Limits.configure loopBudget maxLinkSize env' = Limits.configure loopBudget maxLinkSize env := by
  have hread : ∀ (argument : Option Int) (name : Text) (minimum : Nat),
      (argument = none → env'.get? name = env.get? name) →
      settingSource argument env' name minimum = settingSource argument env name minimum := by
    intro argument name minimum h
    cases argument with
    | some n => rfl
    | none =>
        simp only [settingSource, Environment.integerAtLeast?, Environment.get]
        rw [h rfl]
  rw [configure_eq, configure_eq, hread _ _ _ hbudget, hread _ _ _ hsize]

/-- An error is about a source that is not valid, and says what is wrong with
it. -/
theorem refuses_of_configure (h : Limits.configure loopBudget maxLinkSize env = .error e) :
    (budgetSource loopBudget env).Refuses loopBudgetVariable 1 .budgetNotPositive e
      ∨ (sizeSource maxLinkSize env).Refuses maxLinkSizeVariable 2 .linkSizeTooSmall e := by
  rw [configure_eq] at h
  have hbudget := read_settingSource loopBudget env loopBudgetVariable 1
  have hsize := read_settingSource maxLinkSize env maxLinkSizeVariable 2
  split at h
  · next e' hb =>
    injection h with h
    rw [hb] at hbudget
    exact .inl (h ▸ hbudget.refuses _)
  · next e' _ hs =>
    injection h with h
    rw [hs] at hsize
    exact .inr (h ▸ hsize.refuses _)
  · next budget size hb hs =>
    rw [hb] at hbudget
    rw [hs] at hsize
    split at h
    · next hsmall =>
      injection h with h
      exact .inl (h ▸ hbudget.refuses_of_lt (by decide) hsmall _)
    · split at h
      · next hsmall =>
        injection h with h
        exact .inr (h ▸ hsize.refuses_of_lt (by decide) hsmall _)
      · cases h

/-- There are limits exactly if both sources are valid. -/
theorem exists_configure_iff :
    (∃ limits, Limits.configure loopBudget maxLinkSize env = .ok limits)
      ↔ (budgetSource loopBudget env).IsValid 1 ∧ (sizeSource maxLinkSize env).IsValid 2 := by
  rw [SettingSource.isValid_iff_exists_gives 9999, SettingSource.isValid_iff_exists_gives 4096]
  constructor
  · rintro ⟨limits, hlimits⟩
    obtain ⟨hbudget, hsize⟩ := configure_eq_ok_iff.mp hlimits
    exact ⟨⟨_, hbudget⟩, _, hsize⟩
  · rintro ⟨⟨budget, hbudget⟩, size, hsize⟩
    cases hconfigured : Limits.configure loopBudget maxLinkSize env with
    | ok limits => exact ⟨limits, rfl⟩
    | error e =>
        rcases refuses_of_configure hconfigured with hrefused | hrefused
        · exact absurd hbudget (hrefused.not_gives budget)
        · exact absurd hsize (hrefused.not_gives size)

end

-- ============================================================= resolvers

theorem makeResolver_fst (s : Session) (loopBudget maxLinkSize : Option Int) :
    (s.makeResolver loopBudget maxLinkSize).1
      = match Limits.configure loopBudget maxLinkSize s.environment with
        | .error e => .error (.configuration e)
        | .ok limits => .ok ⟨s.nextResolver, limits⟩ := by
  unfold Session.makeResolver
  cases Limits.configure loopBudget maxLinkSize s.environment <;> rfl

/-- A resolver is made exactly if the source of each of its limits is valid: the
argument, else the variable if it is set and not empty, else the default. Its
limits are what the sources give then, and otherwise there is an error of the
configuration, about a source that is not valid. A variable beside an argument
changes nothing. -/
theorem resolver_follows_sources (s : Session) (loopBudget maxLinkSize : Option Int) :
    let made := (s.makeResolver loopBudget maxLinkSize).1
    let budget := budgetSource loopBudget s.environment
    let size := sizeSource maxLinkSize s.environment
    ((∃ r, made = .ok r) ↔ budget.IsValid 1 ∧ size.IsValid 2)
      ∧ (∀ r, made = .ok r → budget.Gives 1 9999 r.limits.loopBudget ∧ 1 ≤ r.limits.loopBudget
          ∧ size.Gives 2 4096 r.limits.maxLinkSize ∧ 2 ≤ r.limits.maxLinkSize)
      ∧ (∀ failure, made = .error failure → ∃ e, failure = .configuration e
          ∧ (budget.Refuses loopBudgetVariable 1 .budgetNotPositive e
            ∨ size.Refuses maxLinkSizeVariable 2 .linkSizeTooSmall e))
      ∧ ∀ env : Environment,
          (loopBudget = none →
            env.get? loopBudgetVariable = s.environment.get? loopBudgetVariable) →
          (maxLinkSize = none →
            env.get? maxLinkSizeVariable = s.environment.get? maxLinkSizeVariable) →
          ({ s with environment := env }.makeResolver loopBudget maxLinkSize).1 = made := by
  intro made budget size
  have hmade : made = _ := makeResolver_fst s loopBudget maxLinkSize
  refine ⟨?_, ?_, ?_, fun env hbudget hsize => ?_⟩
  · rw [hmade, ← exists_configure_iff]
    cases Limits.configure loopBudget maxLinkSize s.environment with
    | error e => exact ⟨nofun, nofun⟩
    | ok limits => exact ⟨fun _ => ⟨limits, rfl⟩, fun _ => ⟨_, rfl⟩⟩
  · intro r hr
    rw [hmade] at hr
    split at hr
    · cases hr
    · next limits hlimits =>
      injection hr with hr
      obtain ⟨hbudget, hsize⟩ := configure_eq_ok_iff.mp hlimits
      rw [← hr]
      exact ⟨hbudget, limits.one_le_loopBudget, hsize, limits.two_le_maxLinkSize⟩
  · intro failure hfailure
    rw [hmade] at hfailure
    split at hfailure
    · next e he =>
      injection hfailure with hfailure
      exact ⟨e, hfailure.symm, refuses_of_configure he⟩
    · cases hfailure
  · rw [hmade, makeResolver_fst]
    show (match Limits.configure loopBudget maxLinkSize env with
      | .error e => _ | .ok limits => _) = _
    rw [configure_congr hbudget hsize]

end PathResolution
