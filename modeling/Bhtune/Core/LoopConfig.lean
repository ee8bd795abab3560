import Bhtune.Library.BinaryFloat
import Mathlib.Algebra.Order.Field.Basic
import Mathlib.Data.Rat.Cast.Order

/-!
# Domain types: process and controller types, direction, ranges and the loop configuration

`K` is the ordered field of analog values.  Every finite `f32` is one of its elements and
arithmetic on it is exact; the literals of the program stand for the `f32` or `f64` value they
have there (`BinaryFloat`).  A non-finite analog value is not an element of `K`, so the
`is_finite` tests of the validators below are always passed and are left out; the order tests
stand as the source has them.
-/

namespace Bhtune

open BinaryFloat

/-- A process/loop category: a row of the tuning-constant matrices. -/
inductive ProcessType where
  | flow
  | pressureLine
  | pressureVessel
  | level
  | temperatureMixing
  | temperatureHeatExchange
  deriving DecidableEq, Repr

/-- A PID controller structure: a column of the tuning-constant matrices. -/
inductive ControllerType where
  | p
  | pi
  | pid
  deriving DecidableEq, Repr

/-- `ProcessType::allows_pid`. -/
def ProcessType.allowsPid : ProcessType → Bool
  | .temperatureMixing | .temperatureHeatExchange => true
  | _ => false

/-- `ControllerType::is_allowed_for`. -/
def ControllerType.isAllowedFor (processType : ProcessType) : ControllerType → Bool
  | .p | .pi => true
  | .pid => processType.allowsPid

/-- How aggressively a tuning result should push the loop. -/
inductive ResponseLevel where
  | aggressive
  | moderate
  | sluggish
  deriving DecidableEq, Repr

/-- `ResponseLevel::ALL`, in index order. -/
def ResponseLevel.all : List ResponseLevel := [.aggressive, .moderate, .sluggish]

/-- Direct-acting (increasing MV increases PV) or reverse-acting. -/
inductive ControllerDirection where
  | direct
  | reverse
  deriving DecidableEq, Repr

namespace ControllerDirection

/-- The sign flip applied throughout the relay-feedback math. -/
def actionMultiplier : ControllerDirection → ℤ
  | direct => -1
  | reverse => 1

/-- The other direction. -/
def opposite : ControllerDirection → ControllerDirection
  | direct => reverse
  | reverse => direct

theorem actionMultiplier_opposite (d : ControllerDirection) :
    d.opposite.actionMultiplier = -d.actionMultiplier := by cases d <;> rfl

theorem actionMultiplier_eq (d : ControllerDirection) :
    d.actionMultiplier = 1 ∨ d.actionMultiplier = -1 := by cases d <;> decide

end ControllerDirection

variable {K : Type*}

/-- Why `PvRange::new` or `MvRange::new` rejected a range. -/
inductive RangeError (K : Type*) where
  | zeroSpan (high low : K)
  | lowNotBelowHigh (low high : K)
  deriving DecidableEq, Repr

/-- PV scale range, used only as a span. -/
structure PvRange (K : Type*) where
  high : K
  low : K
  deriving DecidableEq, Repr

/-- MV range floor and ceiling. -/
structure MvRange (K : Type*) where
  high : K
  low : K
  deriving DecidableEq, Repr

/-- `PvRange::new`: only distinctness of the bounds is required. -/
def PvRange.new [DecidableEq K] (high low : K) : Except (RangeError K) (PvRange K) :=
  if high = low then .error (.zeroSpan high low) else .ok ⟨high, low⟩

section Ordered

variable [LinearOrder K]

/-- `MvRange::new`: strict `low < high` ordering is required. -/
def MvRange.new (high low : K) : Except (RangeError K) (MvRange K) :=
  if high ≤ low then .error (.lowNotBelowHigh low high) else .ok ⟨high, low⟩

/-- Whether a value falls within the inclusive bounds. -/
def MvRange.contains (r : MvRange K) (value : K) : Bool :=
  decide (r.low ≤ value) && decide (value ≤ r.high)

end Ordered

/-- Per-run test configuration. -/
structure LoopConfig (K : Type*) where
  processType : ProcessType
  controllerType : ControllerType
  /-- Relay amplitude as a percentage of the MV range. -/
  relayAmpPercent : K
  numCyclesSkip : UInt32
  numCyclesCount : UInt32
  noiseProtectionSecs : UInt32
  mrftDelaySecs : UInt32
  deriving DecidableEq

/-- Why a `LoopConfig` failed validation. -/
inductive LoopConfigError (K : Type*) where
  | relayAmpOutOfRange (value : K)
  | cyclesCountMustBeAtLeastOne
  | mrftDelayOutOfRange (value : UInt32)
  deriving DecidableEq

namespace LoopConfig

/-- `RELAY_AMP_PERCENT_MIN`, an `f32`. -/
def relayAmpPercentMin : ℚ := f32 0.1

/-- `RELAY_AMP_PERCENT_MAX`, an `f32`. -/
def relayAmpPercentMax : ℚ := f32 50

/-- `MRFT_DELAY_SECS_MAX`. -/
def mrftDelaySecsMax : UInt32 := 3600

variable [Field K] [LinearOrder K]

/-- `LoopConfig::validate`. -/
def validate (config : LoopConfig K) : Except (LoopConfigError K) Unit :=
  if ¬((relayAmpPercentMin : K) ≤ config.relayAmpPercent ∧
      config.relayAmpPercent ≤ (relayAmpPercentMax : K)) then
    .error (.relayAmpOutOfRange config.relayAmpPercent)
  else if config.numCyclesCount < 1 then
    .error .cyclesCountMustBeAtLeastOne
  else if mrftDelaySecsMax < config.mrftDelaySecs then
    .error (.mrftDelayOutOfRange config.mrftDelaySecs)
  else .ok ()

theorem relayAmpPercentMin_pos : 0 < relayAmpPercentMin := by decide +kernel

theorem relayAmpPercentMax_eq : relayAmpPercentMax = 50 := by decide +kernel

/-- Validation succeeds exactly on a relay amplitude in range, at least one counted cycle and a
bounded padding time. -/
theorem validate_ok_iff (config : LoopConfig K) :
    config.validate = .ok () ↔
      ((relayAmpPercentMin : K) ≤ config.relayAmpPercent ∧
        config.relayAmpPercent ≤ (relayAmpPercentMax : K)) ∧
      1 ≤ config.numCyclesCount.toNat ∧ config.mrftDelaySecs ≤ mrftDelaySecsMax := by
  have hcount : ¬config.numCyclesCount < 1 ↔ 1 ≤ config.numCyclesCount.toNat := by
    rw [UInt32.lt_iff_toNat_lt]
    exact Nat.not_lt
  unfold validate
  by_cases h₁ : (relayAmpPercentMin : K) ≤ config.relayAmpPercent ∧
      config.relayAmpPercent ≤ (relayAmpPercentMax : K)
  · rw [if_neg (not_not.mpr h₁)]
    by_cases h₂ : config.numCyclesCount < 1
    · rw [if_pos h₂]
      exact ⟨nofun, fun h => absurd h₂ (hcount.mpr h.2.1)⟩
    · rw [if_neg h₂]
      by_cases h₃ : mrftDelaySecsMax < config.mrftDelaySecs
      · rw [if_pos h₃]
        exact ⟨nofun, fun h => absurd h₃ (UInt32.not_lt.mpr h.2.2)⟩
      · rw [if_neg h₃]
        exact ⟨fun _ => ⟨h₁, hcount.mp h₂, UInt32.not_lt.mp h₃⟩, fun _ => rfl⟩
  · rw [if_pos h₁]
    exact ⟨nofun, fun h => absurd h.1 h₁⟩

/-- A validated configuration counts at least one cycle. -/
theorem one_le_count_of_validate {config : LoopConfig K} (h : config.validate = .ok ()) :
    1 ≤ config.numCyclesCount.toNat := ((validate_ok_iff config).mp h).2.1

/-- A validated relay amplitude is at most half of the MV span. -/
theorem relayAmpPercent_le_of_validate {config : LoopConfig K} (h : config.validate = .ok ()) :
    config.relayAmpPercent ≤ 50 := by
  have hmax := ((validate_ok_iff config).mp h).1.2
  rw [relayAmpPercentMax_eq] at hmax
  exact_mod_cast hmax

/-- A validated relay amplitude is positive. -/
theorem relayAmpPercent_pos_of_validate [IsStrictOrderedRing K] {config : LoopConfig K}
    (h : config.validate = .ok ()) : 0 < config.relayAmpPercent := by
  have hmin := ((validate_ok_iff config).mp h).1.1
  exact lt_of_lt_of_le (Rat.cast_pos.mpr relayAmpPercentMin_pos) hmin

end LoopConfig

/-- A flow loop under PI control with the process type's default cycle counts. -/
def flowLoopConfig : LoopConfig ℚ where
  processType := .flow
  controllerType := .pi
  relayAmpPercent := 10
  numCyclesSkip := 1
  numCyclesCount := 2
  noiseProtectionSecs := 3
  mrftDelaySecs := 0

theorem validate_flowLoopConfig : flowLoopConfig.validate = .ok () := by decide +kernel

end Bhtune
