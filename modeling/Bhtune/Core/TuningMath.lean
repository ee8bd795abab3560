import Bhtune.Core.Constants
import Bhtune.Core.Mrft
import Bhtune.Core.Template
import Bhtune.Library.ExtendedNumber

/-!
# Tuning-constant math: from a completed run to Kp, Ti, Td and the PID parameters

The measured fields are `XNum` values, so that a division by zero shows up as the non-finite
value the checked entry point looks for.  The asserts and slice indices of `measure_oscillation`
are errors of its result.

* `measureOscillation_ok` — what the lengths of the recorded extrema guarantee;
* `countedSums` — the extrema that count.
-/

namespace Bhtune

open BinaryFloat

variable {K : Type*}

/-- Oscillation measurements of a completed run. -/
structure Oscillation (K : Type*) where
  periodMinutes : XNum K
  frequency : XNum K
  pvAmpRaw : XNum K
  pvAmpPercent : XNum K
  deriving DecidableEq, Repr

/-- Kp, Ti and Td for one response level, before unit conversion. -/
structure TuningResult (K : Type*) where
  responseLevel : ResponseLevel
  kp : XNum K
  tiMinutes : XNum K
  tdMinutes : XNum K
  deriving DecidableEq, Repr

/-- The PID parameters in a template's own representation. -/
structure PidParameters (K : Type*) where
  responseLevel : ResponseLevel
  proportional : XNum K
  integral : XNum K
  derivative : XNum K
  deriving DecidableEq, Repr

/-- Whether a calculated result is safe to use. -/
inductive TuningResultStatus where
  | valid
  | invalid
  deriving DecidableEq, Repr

/-- Why a calculated result was marked invalid. -/
inductive TuningResultInvalidReason where
  | nonFinitePvAmplitude
  | nonPositivePvAmplitude
  | nonFinitePeriod
  | nonPositivePeriod
  | nonFiniteFrequency
  | nonPositiveFrequency
  | nonFiniteKp
  | nonFiniteTiMinutes
  | nonFiniteTdMinutes
  | nonFiniteProportional
  | nonFiniteIntegral
  | nonFiniteDerivative
  deriving DecidableEq, Repr

/-- A checked result for one response level; an invalid one exposes no numbers. -/
structure CheckedTuningResult (K : Type*) where
  responseLevel : ResponseLevel
  status : TuningResultStatus
  invalidReason : Option TuningResultInvalidReason
  tuning : Option (TuningResult K)
  pid : Option (PidParameters K)
  deriving DecidableEq, Repr

/-- `CheckedTuningResult::invalid`. -/
def CheckedTuningResult.invalid (responseLevel : ResponseLevel)
    (reason : TuningResultInvalidReason) : CheckedTuningResult K where
  responseLevel := responseLevel
  status := .invalid
  invalidReason := some reason
  tuning := none
  pid := none

/-- `CheckedTuningResult::valid`. -/
def CheckedTuningResult.valid (tuning : TuningResult K) (pid : PidParameters K) :
    CheckedTuningResult K where
  responseLevel := tuning.responseLevel
  status := .valid
  invalidReason := none
  tuning := some tuning
  pid := some pid

/-- The panics of `measure_oscillation`: its asserts, with the lengths they print, and its slice
and index expressions. -/
inductive MeasurePanic where
  | fewSwitchTimes (len : ℕ)
  | switchTimesLength (left right : ℕ)
  | peaksLength (left right : ℕ)
  | troughsLength (left right : ℕ)
  | sliceIndex
  deriving DecidableEq, Repr

section Math

variable [Field K] [LinearOrder K]

/-- `f32::consts::PI`. -/
def pi32 : ℚ := f32 3.14159265358979323846264338327950288

/-- `f64::consts::PI`. -/
def pi64 : ℚ := f64 3.14159265358979323846264338327950288

theorem pi32_pos : 0 < pi32 := by decide +kernel

theorem pi64_pos : 0 < pi64 := by decide +kernel

/-- `num_milliseconds` of the span between two times; it truncates toward zero. -/
def elapsedMilliseconds (first last : UtcTime) : ℤ := (last - first).tdiv 1000000

/-- The slice `xs[1..]`. -/
def sliceFromOne (xs : List K) : Except MeasurePanic (List K) :=
  match xs with
  | [] => .error .sliceIndex
  | _ :: rest => .ok rest

/-- The sums of the peaks and of the troughs that count: the first recorded extremum is left
out. -/
def extremaSums (peaks troughs : List K) (firstSwitchIsPeak : Bool) (n : ℕ) :
    Except MeasurePanic (K × K) :=
  if firstSwitchIsPeak then
    if peaks.length ≠ n + 1 then .error (.peaksLength peaks.length (n + 1))
    else if troughs.length ≠ n then .error (.troughsLength troughs.length n)
    else (sliceFromOne peaks).map fun rest => (rest.sum, troughs.sum)
  else
    if troughs.length ≠ n + 1 then .error (.troughsLength troughs.length (n + 1))
    else if peaks.length ≠ n then .error (.peaksLength peaks.length n)
    else (sliceFromOne troughs).map fun rest => (peaks.sum, rest.sum)

/-- The measurements themselves, once every length is known to be right. -/
def oscillationOf (sums : K × K) (first last : UtcTime) (n : ℕ) (pvRange : PvRange K) :
    Oscillation K :=
  let secsForPeriod := (elapsedMilliseconds first last : K) / 1000
  let periodMinutes := XNum.fin (secsForPeriod / 60) / XNum.fin (n : K)
  let pvAmpRaw := XNum.fin (sums.1 - sums.2) / XNum.fin (2 * (n : K))
  { periodMinutes := periodMinutes
    frequency := XNum.fin (2 * (pi32 : K)) / periodMinutes
    pvAmpRaw := pvAmpRaw
    pvAmpPercent := pvAmpRaw / XNum.fin (pvRange.high - pvRange.low) * XNum.fin 100 }

/-- `measure_oscillation`. -/
def measureOscillation (peaks troughs : List K) (switchTimes : List UtcTime) (mvSignInit : ℤ)
    (direction : ControllerDirection) (config : LoopConfig K) (pvRange : PvRange K) :
    Except MeasurePanic (Oscillation K) :=
  let n := config.numCyclesCount.toNat
  if switchTimes.length < 2 then .error (.fewSwitchTimes switchTimes.length)
  else if switchTimes.length ≠ n * 2 + 1 then
    .error (.switchTimesLength switchTimes.length (n * 2 + 1))
  else
    match extremaSums peaks troughs (decide (mvSignInit * direction.actionMultiplier = 1)) n with
    | .error panic => .error panic
    | .ok sums =>
      match switchTimes.head?, switchTimes.getLast? with
      | some first, some last => .ok (oscillationOf sums first last n pvRange)
      | _, _ => .error .sliceIndex

/-- The ultimate-gain formula `c1 * 4 * d / (pi * pv_amp_percent)`. -/
def ultimateGain (c1 relayAmpPercent : K) (pvAmpPercent : XNum K) : XNum K :=
  XNum.fin (c1 * 4 * relayAmpPercent) / (XNum.fin (pi64 : K) * pvAmpPercent)

/-- `calculate_tuning_result`. -/
def calculateTuningResult (oscillation : Oscillation K) (config : LoopConfig K)
    (responseLevel : ResponseLevel) : TuningResult K :=
  let tc : TuningConstants K := lookup config.processType config.controllerType responseLevel
  { responseLevel := responseLevel
    kp := ultimateGain tc.c1 config.relayAmpPercent oscillation.pvAmpPercent
    tiMinutes := XNum.fin (tc.c2 * 2 * (pi32 : K)) / oscillation.frequency
    tdMinutes := XNum.fin (tc.c3 * 2 * (pi32 : K)) / oscillation.frequency }

/-- `calculate_pid_parameters`; the unit conversion comes before the type conversion. -/
def calculatePidParameters (result : TuningResult K) (template : DcsTemplate) :
    PidParameters K :=
  let proportional :=
    match template.proportionalType with
    | .gain => result.kp
    | .band => XNum.fin 100 / result.kp
  let integralInTemplateUnit :=
    match template.integralUnit with
    | .seconds => result.tiMinutes * XNum.fin 60
    | .minutes => result.tiMinutes
  let integral :=
    match template.integralType with
    | .resetTime => integralInTemplateUnit
    | .resetRate => XNum.fin 1 / integralInTemplateUnit
    | .resetGain => result.kp / integralInTemplateUnit
  let derivativeInTemplateUnit :=
    match template.derivativeUnit with
    | .seconds => result.tdMinutes * XNum.fin 60
    | .minutes => result.tdMinutes
  let derivative :=
    match template.derivativeType with
    | .derivativeTime => derivativeInTemplateUnit
    | .derivativeGain => result.kp * derivativeInTemplateUnit
  { responseLevel := result.responseLevel
    proportional := proportional
    integral := integral
    derivative := derivative }

/-- `calculate_all`. -/
def calculateAll (peaks troughs : List K) (switchTimes : List UtcTime) (mvSignInit : ℤ)
    (direction : ControllerDirection) (config : LoopConfig K) (pvRange : PvRange K)
    (template : DcsTemplate) : Except MeasurePanic (List (TuningResult K × PidParameters K)) :=
  (measureOscillation peaks troughs switchTimes mvSignInit direction config pvRange).map
    fun osc => ResponseLevel.all.map fun level =>
      let result := calculateTuningResult osc config level
      (result, calculatePidParameters result template)

/-- `invalid_oscillation_reason`. -/
def invalidOscillationReason (oscillation : Oscillation K) : Option TuningResultInvalidReason :=
  if !oscillation.pvAmpRaw.isFinite || !oscillation.pvAmpPercent.isFinite then
    some .nonFinitePvAmplitude
  else if oscillation.pvAmpRaw.leZero || oscillation.pvAmpPercent.leZero then
    some .nonPositivePvAmplitude
  else if !oscillation.periodMinutes.isFinite then some .nonFinitePeriod
  else if oscillation.periodMinutes.leZero then some .nonPositivePeriod
  else if !oscillation.frequency.isFinite then some .nonFiniteFrequency
  else if oscillation.frequency.leZero then some .nonPositiveFrequency
  else none

/-- `checked_result_from_tuning`. -/
def checkedResultFromTuning (tuning : TuningResult K) (template : DcsTemplate) :
    CheckedTuningResult K :=
  if !tuning.kp.isFinite then .invalid tuning.responseLevel .nonFiniteKp
  else if !tuning.tiMinutes.isFinite then .invalid tuning.responseLevel .nonFiniteTiMinutes
  else if !tuning.tdMinutes.isFinite then .invalid tuning.responseLevel .nonFiniteTdMinutes
  else
    let pid := calculatePidParameters tuning template
    if !pid.proportional.isFinite then .invalid tuning.responseLevel .nonFiniteProportional
    else if !pid.integral.isFinite then .invalid tuning.responseLevel .nonFiniteIntegral
    else if !pid.derivative.isFinite then .invalid tuning.responseLevel .nonFiniteDerivative
    else .valid tuning pid

/-- The checked results of one measured oscillation, in level order. -/
def checkedResults (oscillation : Oscillation K) (config : LoopConfig K)
    (template : DcsTemplate) : List (CheckedTuningResult K) :=
  ResponseLevel.all.map fun level =>
    match invalidOscillationReason oscillation with
    | some reason => .invalid level reason
    | none => checkedResultFromTuning (calculateTuningResult oscillation config level) template

/-- `calculate_all_checked`. -/
def calculateAllChecked (peaks troughs : List K) (switchTimes : List UtcTime) (mvSignInit : ℤ)
    (direction : ControllerDirection) (config : LoopConfig K) (pvRange : PvRange K)
    (template : DcsTemplate) : Except MeasurePanic (List (CheckedTuningResult K)) :=
  (measureOscillation peaks troughs switchTimes mvSignInit direction config pvRange).map
    fun osc => checkedResults osc config template

/-! ### When the measurement cannot panic -/

/-- The sums of the extrema that count, when the lengths are right. -/
def countedSums (peaks troughs : List K) (firstSwitchIsPeak : Bool) : K × K :=
  if firstSwitchIsPeak then (peaks.tail.sum, troughs.sum) else (peaks.sum, troughs.tail.sum)

omit [Field K] [LinearOrder K] in
theorem sliceFromOne_ok {xs : List K} (h : xs.length ≠ 0) : sliceFromOne xs = .ok xs.tail := by
  cases xs with
  | nil => exact absurd rfl h
  | cons x rest => rfl

omit [LinearOrder K] in
theorem extremaSums_ok {peaks troughs : List K} {firstSwitchIsPeak : Bool} {n : ℕ}
    (hpeak : firstSwitchIsPeak = true → peaks.length = n + 1 ∧ troughs.length = n)
    (htrough : firstSwitchIsPeak = false → peaks.length = n ∧ troughs.length = n + 1) :
    extremaSums peaks troughs firstSwitchIsPeak n =
      .ok (countedSums peaks troughs firstSwitchIsPeak) := by
  cases firstSwitchIsPeak with
  | true =>
    obtain ⟨hp, ht⟩ := hpeak rfl
    simp only [extremaSums, hp, ht, ne_eq, not_true_eq_false, if_true, if_false]
    rw [sliceFromOne_ok (by omega)]
    rfl
  | false =>
    obtain ⟨hp, ht⟩ := htrough rfl
    simp only [extremaSums, hp, ht, ne_eq, not_true_eq_false, if_false, Bool.false_eq_true]
    rw [sliceFromOne_ok (by omega)]
    rfl

/-- **Right lengths suffice.**  With the lengths of a completed run, no assert and no index of
the measurement can fire. -/
theorem measureOscillation_ok {peaks troughs : List K} {switchTimes : List UtcTime}
    {mvSignInit : ℤ} {direction : ControllerDirection} {config : LoopConfig K}
    (hcount : 1 ≤ config.numCyclesCount.toNat)
    (htimes : switchTimes.length = config.numCyclesCount.toNat * 2 + 1)
    (hpeak : mvSignInit * direction.actionMultiplier = 1 →
      peaks.length = config.numCyclesCount.toNat + 1 ∧
        troughs.length = config.numCyclesCount.toNat)
    (htrough : ¬mvSignInit * direction.actionMultiplier = 1 →
      peaks.length = config.numCyclesCount.toNat ∧
        troughs.length = config.numCyclesCount.toNat + 1) (pvRange : PvRange K) :
    measureOscillation peaks troughs switchTimes mvSignInit direction config pvRange =
      .ok (oscillationOf
        (countedSums peaks troughs (decide (mvSignInit * direction.actionMultiplier = 1)))
        (switchTimes.headD 0) (switchTimes.getLastD 0) config.numCyclesCount.toNat pvRange) := by
  have hsums : extremaSums peaks troughs
      (decide (mvSignInit * direction.actionMultiplier = 1)) config.numCyclesCount.toNat
        = .ok (countedSums peaks troughs
          (decide (mvSignInit * direction.actionMultiplier = 1))) := extremaSums_ok
    (fun h => hpeak (of_decide_eq_true h)) (fun h => htrough (of_decide_eq_false h))
  have hnonempty : switchTimes ≠ [] := by
    intro hnil
    rw [hnil, List.length_nil] at htimes
    omega
  obtain ⟨first, rest, rfl⟩ := List.exists_cons_of_ne_nil hnonempty
  rw [measureOscillation]
  simp only [htimes, ne_eq, not_true_eq_false, if_false, hsums]
  rw [if_neg (by omega), List.head?_cons]
  simp only [List.headD_cons, List.getLast?_cons, List.getLastD_eq_getLast?, Option.getD_some]

end Math

end Bhtune
