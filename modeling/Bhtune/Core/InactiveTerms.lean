import Bhtune.Core.TuningMath

/-!
# Results whose integral or derivative term is not used

A P controller has no integral action, so its integral multiplier is zero and so is its integral
time.  `checked_result_from_tuning` looks at all three converted terms, used or not.

* `checkedResultFromTuning_valid_iff` — what makes a result valid;
* `isFinite_integral_iff` — when the converted integral term is a number;
* `checked_results_valid_iff` — the results of a usable oscillation are valid unless a P controller
  meets a template that inverts the integral time.
-/

namespace Bhtune

variable {K : Type*} [Field K] [LinearOrder K]

/-! ### The tables -/

/-- The signs of the two multipliers of an allowed controller type. -/
theorem tables_sign {p : ProcessType} {c : ControllerType} (h : c.isAllowedFor p = true)
    (level : ResponseLevel) : 0 < c1Table p level c ∧ (c2Table p c = 0 ↔ c = .p) := by
  revert h
  cases p <;> cases c <;> cases level <;> decide +kernel

/-- The gain multiplier of an allowed controller type is positive. -/
theorem c1Table_pos {p : ProcessType} {c : ControllerType} (h : c.isAllowedFor p = true)
    (level : ResponseLevel) : 0 < c1Table p level c :=
  (tables_sign h level).1

/-- The integral multiplier of an allowed controller type is zero for a P controller only. -/
theorem c2Table_eq_zero_iff {p : ProcessType} {c : ControllerType} (h : c.isAllowedFor p = true) :
    c2Table p c = 0 ↔ c = .p :=
  (tables_sign h .moderate).2

/-! ### The conversions -/

/-- A result is valid when every number of it is finite. -/
theorem checkedResultFromTuning_valid_iff (tuning : TuningResult K) (template : DcsTemplate) :
    (checkedResultFromTuning tuning template).status = .valid ↔
      (tuning.kp.isFinite = true ∧ tuning.tiMinutes.isFinite = true ∧
        tuning.tdMinutes.isFinite = true) ∧
      (calculatePidParameters tuning template).proportional.isFinite = true ∧
      (calculatePidParameters tuning template).integral.isFinite = true ∧
      (calculatePidParameters tuning template).derivative.isFinite = true := by
  unfold checkedResultFromTuning
  dsimp only
  split_ifs <;> simp_all [CheckedTuningResult.invalid, CheckedTuningResult.valid]

theorem responseLevel_checkedResultFromTuning (tuning : TuningResult K) (template : DcsTemplate) :
    (checkedResultFromTuning tuning template).responseLevel = tuning.responseLevel := by
  unfold checkedResultFromTuning
  dsimp only
  split_ifs <;> rfl

section Converted

variable [IsStrictOrderedRing K] {tuning : TuningResult K} {kp ti td : K}
  (hkp : tuning.kp = .fin kp) (hti : tuning.tiMinutes = .fin ti) (htd : tuning.tdMinutes = .fin td)
  (template : DcsTemplate)

omit [IsStrictOrderedRing K] in
include hkp in
theorem isFinite_proportional (hpos : 0 < kp) :
    (calculatePidParameters tuning template).proportional.isFinite = true := by
  unfold calculatePidParameters
  rw [hkp]
  cases template.proportionalType with
  | gain => rfl
  | band =>
    show (XNum.fin 100 / XNum.fin kp).isFinite = true
    simp [XNum.isFinite_fin_div_fin, hpos.ne']

include hkp hti in
/-- A template that inverts the integral time makes no number of a zero one. -/
theorem isFinite_integral_iff :
    (calculatePidParameters tuning template).integral.isFinite = true ↔
      template.integralType = .resetTime ∨ ti ≠ 0 := by
  unfold calculatePidParameters
  rw [hkp, hti]
  cases template.integralUnit <;> cases template.integralType <;>
    simp [XNum.isFinite_fin_div_fin]

omit [IsStrictOrderedRing K] in
include hkp htd in
theorem isFinite_derivative :
    (calculatePidParameters tuning template).derivative.isFinite = true := by
  unfold calculatePidParameters
  rw [hkp, htd]
  cases template.derivativeUnit <;> cases template.derivativeType <;> rfl

end Converted

/-! ### A usable oscillation -/

/-- An oscillation whose amplitude, period and frequency are finite and positive. -/
def Oscillation.IsUsable (oscillation : Oscillation K) : Prop :=
  ∃ period frequency raw percent : K, (0 < period ∧ 0 < frequency ∧ 0 < raw ∧ 0 < percent) ∧
    oscillation = ⟨.fin period, .fin frequency, .fin raw, .fin percent⟩

section Usable

variable {oscillation : Oscillation K} {config : LoopConfig K}

theorem invalidOscillationReason_of_usable (h : oscillation.IsUsable) :
    invalidOscillationReason oscillation = none := by
  obtain ⟨period, frequency, raw, percent, ⟨h₁, h₂, h₃, h₄⟩, rfl⟩ := h
  simp [invalidOscillationReason, not_le.mpr h₁, not_le.mpr h₂, not_le.mpr h₃, not_le.mpr h₄]

variable [IsStrictOrderedRing K]

/-- A usable oscillation gives numbers: a positive gain, and an integral time that is zero for a P
controller only. -/
theorem tuningResult_of_usable (h : oscillation.IsUsable) (hamp : 0 < config.relayAmpPercent)
    (hallowed : config.controllerType.isAllowedFor config.processType = true)
    (level : ResponseLevel) :
    ∃ kp ti td : K, (calculateTuningResult oscillation config level).kp = .fin kp ∧
      (calculateTuningResult oscillation config level).tiMinutes = .fin ti ∧
      (calculateTuningResult oscillation config level).tdMinutes = .fin td ∧
      0 < kp ∧ (ti = 0 ↔ config.controllerType = .p) := by
  obtain ⟨period, frequency, raw, percent, ⟨_, hfrequency, _, hpercent⟩, rfl⟩ := h
  have hc1 : (0 : K) < (c1Table config.processType level config.controllerType : K) :=
    Rat.cast_pos.mpr (c1Table_pos hallowed level)
  have hpi64 : (0 : K) < (pi64 : K) := Rat.cast_pos.mpr pi64_pos
  have hpi32 : (0 : K) < (pi32 : K) := Rat.cast_pos.mpr pi32_pos
  refine ⟨_, _, _, XNum.fin_div_fin_of_ne _ (mul_pos hpi64 hpercent).ne',
    XNum.fin_div_fin_of_ne _ hfrequency.ne', XNum.fin_div_fin_of_ne _ hfrequency.ne', ?_, ?_⟩
  · exact div_pos (mul_pos (mul_pos hc1 (by norm_num)) hamp) (mul_pos hpi64 hpercent)
  · rw [div_eq_zero_iff, or_iff_left hfrequency.ne', mul_eq_zero, or_iff_left hpi32.ne',
      mul_eq_zero, or_iff_left (by norm_num : (2 : K) ≠ 0)]
    show ((c2Table config.processType config.controllerType : ℚ) : K) = 0 ↔ _
    rw [Rat.cast_eq_zero, c2Table_eq_zero_iff hallowed]

/-- **Inactive terms and validity.**  The three results of a usable oscillation are valid, unless a
P controller meets a template that inverts the integral time. -/
theorem checked_results_valid_iff {peaks troughs : List K} {switchTimes : List UtcTime}
    {mvSignInit : ℤ} {direction : ControllerDirection} {pvRange : PvRange K}
    (hmeasured : measureOscillation peaks troughs switchTimes mvSignInit direction config pvRange =
      .ok oscillation) (husable : oscillation.IsUsable) (hvalid : config.validate = .ok ())
    (hallowed : config.controllerType.isAllowedFor config.processType = true)
    (template : DcsTemplate) :
    (∃ results, calculateAllChecked peaks troughs switchTimes mvSignInit direction config pvRange
        template = .ok results ∧ results.map CheckedTuningResult.responseLevel = ResponseLevel.all ∧
      ∀ result ∈ results, result.status = .valid) ↔
      ¬(config.controllerType = .p ∧ template.integralType ≠ .resetTime) := by
  have hamp := LoopConfig.relayAmpPercent_pos_of_validate hvalid
  have hstatus : ∀ level, (checkedResultFromTuning (calculateTuningResult oscillation config level)
      template).status = .valid ↔
        ¬(config.controllerType = .p ∧ template.integralType ≠ .resetTime) := by
    intro level
    obtain ⟨kp, ti, td, hkp, hti, htd, hpos, hzero⟩ :=
      tuningResult_of_usable husable hamp hallowed level
    rw [checkedResultFromTuning_valid_iff, isFinite_integral_iff hkp hti]
    simp only [hkp, hti, htd, XNum.isFinite_fin, isFinite_proportional hkp template hpos,
      isFinite_derivative hkp htd, true_and, and_true, ne_eq, hzero]
    tauto
  have hall : calculateAllChecked peaks troughs switchTimes mvSignInit direction config pvRange
      template = .ok (ResponseLevel.all.map fun level =>
        checkedResultFromTuning (calculateTuningResult oscillation config level) template) := by
    unfold calculateAllChecked
    rw [hmeasured]
    show Except.ok (checkedResults oscillation config template) = _
    unfold checkedResults
    rw [invalidOscillationReason_of_usable husable]
  rw [hall]
  constructor
  · rintro ⟨results, ⟨rfl⟩, _, h⟩
    exact (hstatus .aggressive).mp (h _ (by simp [ResponseLevel.all]))
  · intro h
    refine ⟨_, rfl, ?_, ?_⟩
    · rw [List.map_map]
      exact List.map_id'' (fun level => responseLevel_checkedResultFromTuning _ _) _
    · intro result hresult
      obtain ⟨level, _, rfl⟩ := List.mem_map.mp hresult
      exact (hstatus level).mpr h

end Usable

/-! ### A flow loop on a controller with a reset rate -/

/-- A template that expresses the integral term as repeats per minute. -/
def rateTemplate : DcsTemplate where
  name := "Rate DCS"
  revertMode := false
  proportionalType := .band
  integralType := .resetRate
  integralUnit := .minutes
  derivativeType := .derivativeTime
  derivativeUnit := .minutes
  pidRounding := ⟨.decimalPlaces, 3⟩
  processVariableSuffix := "PV"
  manipulatedVariableSuffix := "MV"
  setpointVariableSuffix := ""
  controllerDirectionSuffix := ""
  controllerModeSuffix := ""
  modeAttributeSuffix := ""
  upperPvRangeSuffix := ""
  lowerPvRangeSuffix := ""
  upperMvRangeSuffix := ""
  lowerMvRangeSuffix := ""
  proportionalConstantSuffix := ""
  integralConstantSuffix := ""
  derivativeConstantSuffix := ""
  modeManualValue := ""
  modeAutoValue := ""
  modeAttributeProgramValue := none
  controllerActionDirectValue := "DIRECT"

/-- The results of two cycles of a minute each, of amplitude 1. -/
def minuteResults (config : LoopConfig ℚ) :
    Except MeasurePanic (List (CheckedTuningResult ℚ)) :=
  calculateAllChecked [60, 52, 48] [50, 46]
    [seconds 0, seconds 30, seconds 60, seconds 90, seconds 120] 1 .reverse config ⟨100, 0⟩
    rateTemplate

/-- What is measured of them. -/
def minuteOscillation : Oscillation ℚ := ⟨.fin 1, .fin (2 * pi32), .fin 1, .fin 1⟩

theorem minuteOscillation_isUsable : minuteOscillation.IsUsable :=
  ⟨1, 2 * pi32, 1, 1, ⟨one_pos, mul_pos two_pos pi32_pos, one_pos, one_pos⟩, rfl⟩

theorem minute_measured (config : LoopConfig ℚ) (hcount : config.numCyclesCount = 2) :
    measureOscillation [60, 52, 48] [50, 46]
      [seconds 0, seconds 30, seconds 60, seconds 90, seconds 120] 1 .reverse config ⟨100, 0⟩ =
        .ok minuteOscillation := by
  unfold measureOscillation
  rw [hcount]
  decide +kernel

/-- A PI controller is tuned with that template. -/
theorem checked_results_valid_flow :
    ∃ results, minuteResults flowLoopConfig = .ok results ∧
      results.map CheckedTuningResult.responseLevel = ResponseLevel.all ∧
      ∀ result ∈ results, result.status = .valid :=
  (checked_results_valid_iff (minute_measured flowLoopConfig rfl) minuteOscillation_isUsable
    validate_flowLoopConfig rfl rateTemplate).mpr (by decide)

/-- A P controller is not: every result is invalid for its unused integral term. -/
theorem checked_results_invalid_p :
    minuteOscillation.IsUsable ∧
      measureOscillation [60, 52, 48] [50, 46]
        [seconds 0, seconds 30, seconds 60, seconds 90, seconds 120] 1 .reverse
        { flowLoopConfig with controllerType := .p } ⟨100, 0⟩ = .ok minuteOscillation ∧
      minuteResults { flowLoopConfig with controllerType := .p } =
        .ok (ResponseLevel.all.map fun level => .invalid level .nonFiniteIntegral) :=
  ⟨minuteOscillation_isUsable, minute_measured _ rfl, by decide +kernel⟩

end Bhtune
