/-
The configuration of the compiler.

`Config.override` merges settings without looking at them, `Config.validate` accepts a tick rate
that is a positive whole number and a module prefix of the right grammar.  `Settings` is the
configuration in force for the whole process: it starts as the standard one, and only validated
configurations ever replace it.  `secondsToTicks` converts spans of time.
-/
import SceneLogic.Fault
import SceneLogic.Text.Identifier
import SceneLogic.Number.Decimal
namespace SceneLogic

/-- What the compiler goes by. -/
structure Config where
  /-- Ticks of the host in a second. -/
  ticksPerSecond : Number
  /-- Scripts are named by this, a dot and the carrier name. -/
  logicModulePrefix : String
  /-- Scripts have their grammar checked before they are handed out. -/
  checkGeneratedLogic : Bool
  /-- Debug entries are shown. -/
  verbose : Bool
deriving DecidableEq

namespace Config

/-- The configuration in force until another is set. -/
def standard : Config := ⟨60, "logic", true, false⟩

/-- Settings to change. -/
structure Overrides where
  ticksPerSecond : Option Number := none
  logicModulePrefix : Option String := none
  checkGeneratedLogic : Option Bool := none
  verbose : Option Bool := none

/-- Replaces the settings that are given. -/
def override (c : Config) (o : Overrides) : Config where
  ticksPerSecond := o.ticksPerSecond.getD c.ticksPerSecond
  logicModulePrefix := o.logicModulePrefix.getD c.logicModulePrefix
  checkGeneratedLogic := o.checkGeneratedLogic.getD c.checkGeneratedLogic
  verbose := o.verbose.getD c.verbose

/-- The tick rate is a positive whole number and the module prefix follows its grammar. -/
def Valid (c : Config) : Prop :=
  (c.ticksPerSecond.isWhole ∧ Number.lt 0 c.ticksPerSecond) ∧
    Text.isModulePrefix c.logicModulePrefix

/-- Refuses a configuration that is not valid, looking at the tick rate first. -/
def validate (c : Config) : Except Fault Config :=
  if ¬ (c.ticksPerSecond.isWhole ∧ Number.lt 0 c.ticksPerSecond) then
    .error (.badTickRate c.ticksPerSecond)
  else if ¬ Text.isModulePrefix c.logicModulePrefix then
    .error (.badModulePrefix c.logicModulePrefix)
  else .ok c

end Config

/-- The configuration of the process: the standard one, or one that was set. -/
inductive Settings where
  | standard
  | set (c : Config)
deriving DecidableEq

namespace Settings

/-- The configuration in force. -/
def config : Settings → Config
  | standard => Config.standard
  | set c => c

/-- Merges overrides into the configuration in force, which stays if the outcome is not valid. -/
def configure (s : Settings) (o : Config.Overrides) : Except Fault Settings :=
  (s.config.override o).validate.map set

end Settings

/-! ### Spans of time -/

/-- What is taken off a span before it is rounded up, so that a product that lies above a whole
number by a rounding error counts as that number: `1e-9`. -/
def tickSlack : Number := (⟨1, -9⟩ : Decimal).toNumber false

/-- The whole ticks that cover a span of seconds. -/
def secondsToTicks (seconds ticksPerSecond : Number) : Number :=
  if seconds.le 0 then 0 else ((seconds.mul ticksPerSecond).sub tickSlack).ceil

end SceneLogic
