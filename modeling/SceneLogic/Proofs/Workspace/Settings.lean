/-
Configurations in force.

The configuration of the process is valid whatever is asked for, as overrides that would break it
are refused and change nothing.  A context takes over the configuration of the process with
overrides of its own, and these nobody looks at: its configuration is valid exactly if they are
(`Workspace.settings_law`), and it need not be (`Workspace.context_unchecked`).
-/
import SceneLogic.Workspace.Basic
namespace SceneLogic

namespace Config

variable {c : Config} {o : Overrides}

/-- Overrides that keep a configuration valid. -/
def Overrides.Valid (o : Overrides) : Prop :=
  (∀ rate ∈ o.ticksPerSecond, rate.isWhole ∧ Number.lt 0 rate) ∧
    ∀ text ∈ o.logicModulePrefix, Text.isModulePrefix text

theorem standard_valid : standard.Valid := by
  refine ⟨⟨?_, ?_⟩, ?_⟩ <;> decide +kernel

theorem override_valid_iff (valid : c.Valid) : (c.override o).Valid ↔ o.Valid := by
  obtain ⟨rate, text⟩ := valid
  refine and_congr ?_ ?_
  · rw [override]
    cases o.ticksPerSecond with
    | none => simpa using rate
    | some rate => simp
  · rw [override]
    cases o.logicModulePrefix with
    | none => simpa using text
    | some text => simp

theorem validate_of_valid (valid : c.Valid) : c.validate = .ok c := by
  rw [validate, if_neg (not_not_intro valid.1), if_neg (not_not_intro valid.2)]

theorem validate_of_not_valid (broken : ¬ c.Valid) :
    ∃ fault, c.validate = .error fault ∧ fault.kind = .validation := by
  rw [validate]
  split
  · exact ⟨_, rfl, rfl⟩
  · next rate =>
    rw [if_pos fun text => broken ⟨Decidable.not_not.1 rate, text⟩]
    exact ⟨_, rfl, rfl⟩

end Config

namespace Workspace

variable {w : Workspace}

/-! ### Calls -/

/-- What may be asked for about configurations. -/
inductive Setting where
  | configure (o : Config.Overrides)
  | reset
  | context (choice : RegistryChoice) (o : Config.Overrides)

/-- The workspace after a call. -/
def adjust (w : Workspace) : Setting → Workspace
  | .configure o => ((configure o).run.run w).2
  | .reset => { w with settings := .standard }
  | .context choice o => ((makeContext choice o).run.run w).2

/-- The workspace after some calls. -/
def adjustAll (calls : List Setting) : Workspace := calls.foldl adjust {}

/-- Overrides change the configuration of the process exactly if they keep it valid. -/
theorem configure_run (valid : w.settings.config.Valid) (o : Config.Overrides) :
    (o.Valid ∧ (configure o).run.run w = (.ok (w.settings.config.override o),
        { w with settings := .set (w.settings.config.override o) })) ∨
    (¬ o.Valid ∧ ∃ fault, (configure o).run.run w = (.error fault, w) ∧
      fault.kind = .validation) := by
  have run : (configure o).run.run w =
      (ofResult (w.settings.configure o) >>= fun settings => do
        modify fun w => { w with settings }
        return settings.config).run.run w := rfl
  rw [run, Settings.configure, ← Config.override_valid_iff valid]
  by_cases kept : (w.settings.config.override o).Valid
  · rw [Config.validate_of_valid kept]
    exact .inl ⟨kept, rfl⟩
  · obtain ⟨fault, fails, kind⟩ := Config.validate_of_not_valid kept
    rw [fails]
    exact .inr ⟨kept, fault, rfl, kind⟩

/-- A context is made with whatever overrides are given. -/
theorem makeContext_run (w : Workspace) (choice : RegistryChoice) (o : Config.Overrides) :
    ∃ w', (makeContext choice o).run.run w = (.ok (w.settings.config.override o), w') ∧
      w'.settings = w.settings ∧ w'.context.config = w.settings.config.override o := by
  cases choice with
  | process | current | fresh => exact ⟨_, rfl, rfl, rfl⟩

/-- Every call leaves the configuration of the process valid. -/
theorem adjust_valid (valid : w.settings.config.Valid) (call : Setting) :
    (w.adjust call).settings.config.Valid := by
  cases call with
  | configure o =>
    rw [adjust]
    rcases configure_run valid o with ⟨kept, run⟩ | ⟨-, fault, run, -⟩
    · rw [run]
      exact (Config.override_valid_iff valid).2 kept
    · rw [run]
      exact valid
  | reset => exact Config.standard_valid
  | context choice o =>
    obtain ⟨w', run, same, -⟩ := makeContext_run w choice o
    rw [adjust, run, same]
    exact valid

theorem adjustAll_valid (calls : List Setting) : (adjustAll calls).settings.config.Valid := by
  have step : ∀ w : Workspace, w.settings.config.Valid →
      (calls.foldl adjust w).settings.config.Valid := by
    induction calls with
    | nil => exact fun _ valid => valid
    | cons call calls ih => exact fun w valid => ih _ (adjust_valid valid call)
  exact step {} Config.standard_valid

/-- The configuration of the process is valid and guarded, those of contexts are not. -/
structure Guarded (w : Workspace) : Prop where
  valid : w.settings.config.Valid
  /-- Overrides that break the configuration are refused and change nothing. -/
  configure : ∀ o : Config.Overrides,
    (o.Valid ∧ (configure o).run.run w = (.ok (w.settings.config.override o),
        { w with settings := .set (w.settings.config.override o) })) ∨
    (¬ o.Valid ∧ ∃ fault, (configure o).run.run w = (.error fault, w) ∧
      fault.kind = .validation)
  /-- A context is made all the same. -/
  context : ∀ choice (o : Config.Overrides), ∃ config w',
    (makeContext choice o).run.run w = (.ok config, w') ∧ w'.settings = w.settings ∧
      w'.context.config = config ∧ (config.Valid ↔ o.Valid)

/-- **What configurations are in force.**  After any calls the configuration of the process is
valid and guarded, and a context that is made then is valid exactly if its overrides are. -/
theorem settings_law (calls : List Setting) : (adjustAll calls).Guarded := by
  have valid := adjustAll_valid calls
  refine ⟨valid, configure_run valid, fun choice o => ?_⟩
  obtain ⟨w, run, same, config⟩ := makeContext_run (adjustAll calls) choice o
  exact ⟨_, w, run, same, config, Config.override_valid_iff valid⟩

/-- **A context may be made with a tick rate that is not positive.** -/
theorem context_unchecked :
    ∃ config w, (makeContext .process { ticksPerSecond := some 0 }).run.run {} =
        (.ok config, w) ∧ w.context.config = config ∧ ¬ config.Valid := by
  refine ⟨_, _, rfl, rfl, fun valid => ?_⟩
  have positive : Number.lt 0 0 := valid.1.2
  revert positive
  decide +kernel

end Workspace

end SceneLogic
