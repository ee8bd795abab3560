import Bhtune.Core.LoopConfig

/-!
# Tuning-constant tables

The published multipliers, one row a process type and one column a controller type.  The
decimals are the source's own; each stands for the `f32` it is compiled to.  Only `c1` varies by
response level.
-/

namespace Bhtune

open BinaryFloat

/-- The resolved tuning constants for one combination. -/
structure TuningConstants (K : Type*) where
  c1 : K
  c2 : K
  c3 : K
  beta : K
  deriving DecidableEq, Repr

/-- One row of a table, indexed by controller type. -/
def tableRow (p pi pid : ℚ) : ControllerType → ℚ
  | .p => f32 p
  | .pi => f32 pi
  | .pid => f32 pid

/-- `C1`, the proportional-gain multiplier. -/
def c1Table : ProcessType → ResponseLevel → ControllerType → ℚ
  | .flow, .aggressive => tableRow 0.5 0.451 0.0
  | .flow, .moderate => tableRow 0.333 0.302 0.0
  | .flow, .sluggish => tableRow 0.25 0.226 0.0
  | .pressureLine, .aggressive => tableRow 0.5 0.442 0.0
  | .pressureLine, .moderate => tableRow 0.333 0.296 0.0
  | .pressureLine, .sluggish => tableRow 0.25 0.221 0.0
  | .pressureVessel, .aggressive => tableRow 0.333 0.331 0.0
  | .pressureVessel, .moderate => tableRow 0.222 0.222 0.0
  | .pressureVessel, .sluggish => tableRow 0.167 0.166 0.0
  | .level, .aggressive => tableRow 0.333 0.331 0.0
  | .level, .moderate => tableRow 0.222 0.222 0.0
  | .level, .sluggish => tableRow 0.167 0.166 0.0
  | .temperatureMixing, .aggressive => tableRow 0.5 0.47 0.498
  | .temperatureMixing, .moderate => tableRow 0.25 0.235 0.249
  | .temperatureMixing, .sluggish => tableRow 0.167 0.155 0.164
  | .temperatureHeatExchange, .aggressive => tableRow 0.333 0.325 0.332
  | .temperatureHeatExchange, .moderate => tableRow 0.222 0.218 0.222
  | .temperatureHeatExchange, .sluggish => tableRow 0.167 0.163 0.166

/-- `C2`, the integral-time multiplier. -/
def c2Table : ProcessType → ControllerType → ℚ
  | .flow => tableRow 0.0 0.331 0.0
  | .pressureLine => tableRow 0.0 0.302 0.0
  | .pressureVessel => tableRow 0.0 1.216 0.0
  | .level => tableRow 0.0 1.216 0.0
  | .temperatureMixing => tableRow 0.0 0.436 0.162
  | .temperatureHeatExchange => tableRow 0.0 0.704 0.275

/-- `C3`, the derivative-time multiplier. -/
def c3Table : ProcessType → ControllerType → ℚ
  | .flow => tableRow 0.0 0.0 0.0
  | .pressureLine => tableRow 0.0 0.0 0.0
  | .pressureVessel => tableRow 0.0 0.0 0.0
  | .level => tableRow 0.0 0.0 0.0
  | .temperatureMixing => tableRow 0.0 0.0 0.14
  | .temperatureHeatExchange => tableRow 0.0 0.0 0.09

/-- `BETA`, the relay hysteresis multiplier. -/
def betaTable : ProcessType → ControllerType → ℚ
  | .flow => tableRow 0.0 0.433 0.0
  | .pressureLine => tableRow 0.0 0.466 0.0
  | .pressureVessel => tableRow 0.0 0.13 0.0
  | .level => tableRow 0.0 0.13 0.0
  | .temperatureMixing => tableRow 0.0 0.343 0.102
  | .temperatureHeatExchange => tableRow 0.0 0.221 0.013

/-- `DEFAULT_CYCLES_SKIP`. -/
def ProcessType.defaultCyclesSkip : ProcessType → UInt32 := fun _ => 1

/-- `DEFAULT_CYCLES_TEST`. -/
def ProcessType.defaultCyclesTest : ProcessType → UInt32
  | .flow | .pressureLine => 2
  | _ => 1

/-- `DEFAULT_NOISE_PROTECTION_SECS`. -/
def ProcessType.defaultNoiseProtectionSecs : ProcessType → UInt32
  | .flow | .pressureLine => 3
  | .pressureVessel | .level => 10
  | .temperatureMixing | .temperatureHeatExchange => 20

variable {K : Type*} [Field K]

/-- `lookup`. -/
def lookup (processType : ProcessType) (controllerType : ControllerType)
    (responseLevel : ResponseLevel) : TuningConstants K where
  c1 := (c1Table processType responseLevel controllerType : K)
  c2 := (c2Table processType controllerType : K)
  c3 := (c3Table processType controllerType : K)
  beta := (betaTable processType controllerType : K)

end Bhtune
