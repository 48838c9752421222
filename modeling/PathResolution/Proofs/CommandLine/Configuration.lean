/-
Where the limits and the mode of a run come from.

Each of the three settings has its sources: an option before a variable, and a
variable before a default. A run is configured by them (`Configures`) exactly if
each source that is consulted is valid (`configure_cases`, `isConfigured_iff`), and
the variables that are not consulted make no difference
(`SameConsulted.configure`).
-/
import PathResolution.CommandLine.Run
import PathResolution.Proofs.Configuration.Sources

namespace PathResolution.CommandLine

/-- Where the mode of a run comes from: from an option, else from a variable that
says something, whatever the case of its letters, else it is the lenient one. -/
inductive ModeFrom (env : Environment) : (exact : Bool) → ExistenceMode → Prop
  | option : ModeFrom env true .exact
  | named (mode : ExistenceMode) :
      lowerCase (env.get ExistenceMode.environmentName) = mode.name → ModeFrom env false mode
  | default : lowerCase (env.get ExistenceMode.environmentName) = [] →
      ModeFrom env false .missingOk

variable {i : Invocation} {env env' : Environment} {limits : Limits} {mode : ExistenceMode}

/-- The limits and the mode are those of their sources. -/
structure Configures (i : Invocation) (env : Environment) (limits : Limits)
    (mode : ExistenceMode) : Prop where
  budget : (budgetSource (i.loopBudget.map Int.ofNat) env).Gives 1 9999 limits.loopBudget
  size : (sizeSource none env).Gives 2 4096 limits.maxLinkSize
  mode : ModeFrom env i.exact mode

/-- Everything that is consulted is valid. -/
def IsConfigured (i : Invocation) (env : Environment) : Prop :=
  (budgetSource (i.loopBudget.map Int.ofNat) env).IsValid 1 ∧ (sizeSource none env).IsValid 2
    ∧ ∃ mode, ModeFrom env i.exact mode

theorem Configures.isConfigured (h : Configures i env limits mode) : IsConfigured i env :=
  ⟨(SettingSource.isValid_iff_exists_gives 9999).mpr ⟨_, h.budget⟩,
    (SettingSource.isValid_iff_exists_gives 4096).mpr ⟨_, h.size⟩, mode, h.mode⟩

/-- The variable names a mode or says nothing, or there is no mode. -/
theorem modeFrom_ofEnvironment (env : Environment) :
    match ExistenceMode.ofEnvironment env with
    | .ok asked => ModeFrom env false (asked.getD .missingOk)
    | .error _ => ∀ mode, ¬ ModeFrom env false mode := by
  unfold ExistenceMode.ofEnvironment
  cases hvalue : lowerCase (env.get ExistenceMode.environmentName) with
  | nil => exact .default hvalue
  | cons c rest =>
      cases hname : ExistenceMode.ofName? (c :: rest) with
      | some mode =>
          have hfound : ExistenceMode.all.find? (fun m => m.name == c :: rest) = some mode := hname
          have hmode := List.find?_some hfound
          simp only [hname]
          exact .named mode (hvalue.trans (eq_of_beq hmode).symm)
      | none =>
          simp only [hname]
          intro mode hfrom
          cases hfrom with
          | default hempty => cases hvalue.symm.trans hempty
          | named _ hnamed =>
              have hall : mode ∈ ExistenceMode.all := by cases mode <;> decide
              refine List.find?_eq_none.mp hname mode hall ?_
              rw [← hnamed, hvalue]
              exact beq_self_eq_true _

/-- A run is configured by what is consulted, or something of that is not
valid. -/
theorem configure_cases (i : Invocation) (env : Environment) :
    (∃ limits mode, configure i env = .ok (limits, mode) ∧ Configures i env limits mode)
      ∨ ∃ e, configure i env = .error e ∧ ¬ IsConfigured i env := by
  unfold configure
  cases hlimits : Limits.configure (i.loopBudget.map Int.ofNat) none env with
  | error e =>
      refine .inr ⟨e, rfl, fun hvalid => ?_⟩
      obtain ⟨limits, hok⟩ := exists_configure_iff.mpr ⟨hvalid.1, hvalid.2.1⟩
      cases hlimits.symm.trans hok
  | ok limits =>
      obtain ⟨hbudget, hsize⟩ := configure_eq_ok_iff.mp hlimits
      cases hexact : i.exact with
      | true =>
          exact .inl ⟨limits, .exact, rfl, hbudget, hsize, hexact ▸ .option⟩
      | false =>
          have hmode := modeFrom_ofEnvironment env
          cases hread : ExistenceMode.ofEnvironment env with
          | ok asked =>
              rw [hread] at hmode
              exact .inl ⟨limits, asked.getD .missingOk, rfl, hbudget, hsize, hexact ▸ hmode⟩
          | error value =>
              rw [hread] at hmode
              refine .inr ⟨.unknownMode value, rfl, fun hvalid => ?_⟩
              obtain ⟨mode, hfrom⟩ := hvalid.2.2
              rw [hexact] at hfrom
              exact hmode mode hfrom

theorem ModeFrom.unique {exact : Bool} {mode' : ExistenceMode} (h : ModeFrom env exact mode)
    (h' : ModeFrom env exact mode') : mode = mode' := by
  cases h with
  | option =>
      cases h'
      rfl
  | named _ hname =>
      cases h' with
      | named _ hname' =>
          have hsame := hname.symm.trans hname'
          revert hsame
          cases mode <;> cases mode' <;> decide
      | default hempty =>
          have hsame := hname.symm.trans hempty
          revert hsame
          cases mode <;> decide
  | default hempty =>
      cases h' with
      | named _ hname =>
          have hsame := hname.symm.trans hempty
          revert hsame
          cases mode' <;> decide
      | default _ => rfl

/-- There is one configuration at most, and it is the one that is made. -/
theorem Configures.configure_eq (h : Configures i env limits mode) :
    configure i env = .ok (limits, mode) := by
  rcases configure_cases i env with ⟨limits', mode', hok, h'⟩ | ⟨e, -, hinvalid⟩
  · have hlimits := configure_eq_ok_iff.mpr ⟨h.budget, h.size⟩
    have hlimits' := configure_eq_ok_iff.mpr ⟨h'.budget, h'.size⟩
    obtain rfl : limits = limits' := Except.ok.inj (hlimits.symm.trans hlimits')
    rw [hok, h.mode.unique h'.mode]
  · exact absurd h.isConfigured hinvalid

theorem isConfigured_iff : IsConfigured i env ↔ ∃ limits mode, Configures i env limits mode := by
  refine ⟨fun hvalid => ?_, fun ⟨_, _, h⟩ => h.isConfigured⟩
  rcases configure_cases i env with ⟨limits, mode, -, h⟩ | ⟨e, -, hinvalid⟩
  · exact ⟨limits, mode, h⟩
  · exact absurd hvalid hinvalid

/-- Two environments that say the same where they are asked. -/
structure SameConsulted (i : Invocation) (env env' : Environment) : Prop where
  budget : i.loopBudget = none → env'.get? loopBudgetVariable = env.get? loopBudgetVariable
  size : env'.get? maxLinkSizeVariable = env.get? maxLinkSizeVariable
  mode : i.exact = false →
    env'.get? ExistenceMode.environmentName = env.get? ExistenceMode.environmentName

/-- What an environment says elsewhere does not matter. -/
theorem SameConsulted.configure (h : SameConsulted i env env') :
    configure i env' = configure i env := by
  have hlimits : Limits.configure (i.loopBudget.map Int.ofNat) none env'
      = Limits.configure (i.loopBudget.map Int.ofNat) none env :=
    configure_congr (fun hnone => h.budget (Option.map_eq_none_iff.mp hnone)) fun _ => h.size
  unfold CommandLine.configure
  rw [hlimits]
  cases hexact : i.exact with
  | true => rfl
  | false =>
      have hmode : ExistenceMode.ofEnvironment env' = ExistenceMode.ofEnvironment env := by
        unfold ExistenceMode.ofEnvironment Environment.get
        rw [h.mode hexact]
      rw [hmode]

end PathResolution.CommandLine
