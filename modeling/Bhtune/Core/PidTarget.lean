import Bhtune.Core.TuningMath
import Mathlib.Data.Int.Log

/-!
# Controller PID targets

Template rounding of the active PID terms, and the values a disabled term is written with.  A
target's display string is presentation and is left out; widening to `f64` and back is exact here.
-/

namespace Bhtune

/-- `f64::round`: to the nearest integer, exact halves away from zero. -/
def roundHalfAway (q : ℚ) : ℤ := if 0 ≤ q then ⌊q + 1 / 2⌋ else -⌊-q + 1 / 2⌋

/-- `PidRounding::round_value`. -/
def PidRounding.roundValue (policy : PidRounding) (value : XNum ℚ) : Except PidRoundingError ℚ := do
  policy.validate
  match value with
  | .fin wide =>
    let places : ℤ :=
      match policy.kind with
      | .decimalPlaces => policy.digits.toNat
      | .significantDigits =>
        if wide ≠ 0 then policy.digits.toNat - 1 - Int.log 10 |wide| else 0
    let scale : ℚ := (10 : ℚ) ^ places
    return roundHalfAway (wide * scale) / scale
  | _ => .error .nonFinite

/-- Why a controller target is unavailable, and for which term. -/
structure ControllerPidError where
  term : String
  reason : PidRoundingError
  deriving DecidableEq

/-- `rounded_active_term`. -/
def roundedActiveTerm (value : XNum ℚ) (term : String) (policy : PidRounding) :
    Except ControllerPidError ℚ :=
  match policy.roundValue value with
  | .error reason => .error ⟨term, reason⟩
  | .ok rounded =>
    if value.leZero then .error ⟨term, .nonPositive⟩
    else if rounded = 0 then .error ⟨term, .roundedToZero⟩
    else .ok rounded

/-- The integral value that disables integral action. -/
def disabledIntegral : IntegralType → ℚ
  | .resetTime => 9999
  | .resetRate => 0
  | .resetGain => 0

/-- Controller-ready targets. -/
structure ControllerPidValues where
  responseLevel : ResponseLevel
  proportional : ℚ
  integral : ℚ
  derivative : ℚ
  deriving DecidableEq

/-- `controller_pid_values`, with the disabled terms as `opc_write_values` chooses them. -/
def controllerPidValues (pid : PidParameters ℚ) (controllerType : ControllerType)
    (template : DcsTemplate) : Except ControllerPidError ControllerPidValues := do
  let policy := template.pidRounding
  let proportional ← roundedActiveTerm pid.proportional "proportional" policy
  let integral ←
    match controllerType with
    | .p => pure (disabledIntegral template.integralType)
    | .pi => roundedActiveTerm pid.integral "integral" policy
    | .pid => roundedActiveTerm pid.integral "integral" policy
  let derivative ←
    match controllerType with
    | .pid => roundedActiveTerm pid.derivative "derivative" policy
    | .p => pure 0
    | .pi => pure 0
  return { responseLevel := pid.responseLevel, proportional, integral, derivative }

/-- What an active term is written with: a positive number that rounds to it, and not to zero. -/
def PidRounding.Targets (policy : PidRounding) (value : XNum ℚ) (target : ℚ) : Prop :=
  ∃ v, value = .fin v ∧ 0 < v ∧ policy.roundValue value = .ok target ∧ target ≠ 0

theorem targets_of_roundedActiveTerm {value : XNum ℚ} {term : String} {policy : PidRounding}
    {target : ℚ} (h : roundedActiveTerm value term policy = .ok target) :
    policy.Targets value target := by
  unfold roundedActiveTerm at h
  split at h
  · cases h
  · rename_i rounded hround
    split_ifs at h with hzero hrounded
    cases h
    cases value with
    | fin v =>
      have hpos : 0 < v := by simpa using hzero
      exact ⟨v, rfl, hpos, hround, hrounded⟩
    | _ => simp [PidRounding.roundValue, bind, Except.bind] at hround; split at hround <;> cases hround

/-- The three targets of a result: each active term has one, and the others are written with what
disables them. -/
structure ControllerPidValues.Computed (values : ControllerPidValues) (pid : PidParameters ℚ)
    (controllerType : ControllerType) (template : DcsTemplate) : Prop where
  responseLevel : values.responseLevel = pid.responseLevel
  proportional : template.pidRounding.Targets pid.proportional values.proportional
  integral : if controllerType = .p then values.integral = disabledIntegral template.integralType
    else template.pidRounding.Targets pid.integral values.integral
  derivative : if controllerType = .pid then
      template.pidRounding.Targets pid.derivative values.derivative
    else values.derivative = 0

theorem computed_of_controllerPidValues {pid : PidParameters ℚ} {controllerType : ControllerType}
    {template : DcsTemplate} {values : ControllerPidValues}
    (h : controllerPidValues pid controllerType template = .ok values) :
    values.Computed pid controllerType template := by
  unfold controllerPidValues at h
  dsimp only at h
  cases hp : roundedActiveTerm pid.proportional "proportional" template.pidRounding with
  | error e => rw [hp] at h; cases h
  | ok proportional =>
    rw [hp] at h
    have hproportional := targets_of_roundedActiveTerm hp
    cases controllerType with
    | p =>
      cases h
      exact ⟨rfl, hproportional, rfl, rfl⟩
    | pi =>
      cases hi : roundedActiveTerm pid.integral "integral" template.pidRounding with
      | error e => dsimp only at h; rw [hi] at h; cases h
      | ok integral =>
        dsimp only at h
        rw [hi] at h
        cases h
        exact ⟨rfl, hproportional, targets_of_roundedActiveTerm hi, rfl⟩
    | pid =>
      cases hi : roundedActiveTerm pid.integral "integral" template.pidRounding with
      | error e => dsimp only at h; rw [hi] at h; cases h
      | ok integral =>
        cases hd : roundedActiveTerm pid.derivative "derivative" template.pidRounding with
        | error e => dsimp only at h; rw [hi, hd] at h; cases h
        | ok derivative =>
          dsimp only at h
          rw [hi, hd] at h
          cases h
          exact ⟨rfl, hproportional, targets_of_roundedActiveTerm hi,
            targets_of_roundedActiveTerm hd⟩

end Bhtune
