import Bhtune.Core.InactiveTerms
import Bhtune.Core.NoiseProtection

/-!
# The orientation of the PV range

`PvRange::new` accepts both orders of two distinct bounds, "used solely as a span magnitude".
`measure_oscillation` divides by `high - low` with its sign, and `invalid_oscillation_reason`
refuses an amplitude percentage that is not positive.

* `numbers_of_descending` — a descending range never gives a valid result;
* `invalidOscillationReason_ascending` — what an ascending range needs to give one;
* `orientation_free_iff` — both orders agree exactly when neither gives a valid result.
-/

namespace Bhtune

variable {K : Type*} [Field K] [LinearOrder K]

/-- What a caller uses of a checked result: everything but the reason it was refused for. -/
def CheckedTuningResult.numbers (result : CheckedTuningResult K) :
    ResponseLevel × TuningResultStatus × Option (TuningResult K) × Option (PidParameters K) :=
  (result.responseLevel, result.status, result.tuning, result.pid)

/-- The two orders of two PV bounds give the same status, the same Kp, Ti and Td and the same PID
parameters for every response level. -/
def OrientationFree (peaks troughs : List K) (switchTimes : List UtcTime) (mvSignInit : ℤ)
    (direction : ControllerDirection) (config : LoopConfig K) (template : DcsTemplate)
    (p q : K) : Prop :=
  (calculateAllChecked peaks troughs switchTimes mvSignInit direction config ⟨p, q⟩
      template).map (List.map CheckedTuningResult.numbers)
    = (calculateAllChecked peaks troughs switchTimes mvSignInit direction config ⟨q, p⟩
      template).map (List.map CheckedTuningResult.numbers)

/-- The template can express the result of a response level: a band needs a nonzero gain, an
inverted integral time a nonzero integral multiplier. -/
def Expressible (config : LoopConfig K) (template : DcsTemplate) (level : ResponseLevel) : Prop :=
  (template.proportionalType = .band →
    c1Table config.processType level config.controllerType ≠ 0 ∧ config.relayAmpPercent ≠ 0) ∧
  (template.integralType ≠ .resetTime → c2Table config.processType config.controllerType ≠ 0)

/-! ### The two orders of a span -/

/-- A refused result carries no numbers. -/
theorem numbers_of_status {tuning : TuningResult K} {template : DcsTemplate}
    (h : (checkedResultFromTuning tuning template).status ≠ .valid) :
    (checkedResultFromTuning tuning template).numbers
      = (tuning.responseLevel, .invalid, none, none) := by
  unfold checkedResultFromTuning at h ⊢
  dsimp only at h ⊢
  split_ifs at h ⊢ <;> first | rfl | exact absurd rfl h

omit [Field K] [LinearOrder K] in
theorem status_of_numbers {result : CheckedTuningResult K} {level : ResponseLevel}
    (h : result.numbers = (level, .invalid, none, none)) : result.status ≠ .valid := by
  have hstatus : result.status = .invalid := congrArg (fun x => x.2.1) h
  simp [hstatus]

/-- The numbers of the results of an oscillation that is refused. -/
theorem numbers_of_refused {oscillation : Oscillation K} (config : LoopConfig K)
    (template : DcsTemplate) (h : invalidOscillationReason oscillation ≠ none) :
    (checkedResults oscillation config template).map CheckedTuningResult.numbers
      = ResponseLevel.all.map fun level => (level, .invalid, none, none) := by
  cases hreason : invalidOscillationReason oscillation with
  | none => exact absurd hreason h
  | some reason =>
    rw [checkedResults, hreason, List.map_map]
    rfl

variable [IsStrictOrderedRing K]
variable {sums : K × K} {first last : UtcTime} {n : ℕ} {high low : K}

/-- The amplitude percentage of a measurement over a span that is not zero. -/
theorem pvAmpPercent_oscillationOf (hn : 1 ≤ n) (hne : high ≠ low) :
    (oscillationOf sums first last n ⟨high, low⟩).pvAmpPercent
      = .fin ((sums.1 - sums.2) / (2 * (n : K)) / (high - low) * 100) := by
  have hnpos : (0 : K) < n := Nat.cast_pos.mpr hn
  show (XNum.fin (sums.1 - sums.2) / XNum.fin (2 * (n : K))) / XNum.fin (high - low)
    * XNum.fin 100 = _
  rw [XNum.fin_div_fin_of_ne _ (by positivity), XNum.fin_div_fin_of_ne _ (sub_ne_zero.mpr hne)]
  rfl

theorem pvAmpRaw_oscillationOf (hn : 1 ≤ n) (pvRange : PvRange K) :
    (oscillationOf sums first last n pvRange).pvAmpRaw
      = .fin ((sums.1 - sums.2) / (2 * (n : K))) := by
  have hnpos : (0 : K) < n := Nat.cast_pos.mpr hn
  exact XNum.fin_div_fin_of_ne _ (by positivity)

theorem periodMinutes_oscillationOf (hn : 1 ≤ n) (pvRange : PvRange K) :
    (oscillationOf sums first last n pvRange).periodMinutes
      = .fin ((elapsedMilliseconds first last : K) / 1000 / 60 / (n : K)) := by
  have hnpos : (0 : K) < n := Nat.cast_pos.mpr hn
  exact XNum.fin_div_fin_of_ne _ hnpos.ne'

/-- **A descending range is always refused**: either the raw amplitude or the percentage is not
positive. -/
theorem invalidOscillationReason_descending (hn : 1 ≤ n) (hdesc : high < low) :
    invalidOscillationReason (oscillationOf sums first last n ⟨high, low⟩) ≠ none := by
  have hspan : high - low < 0 := sub_neg.mpr hdesc
  have hsign : (sums.1 - sums.2) / (2 * (n : K)) ≤ 0 ∨
      (sums.1 - sums.2) / (2 * (n : K)) / (high - low) * 100 ≤ 0 := by
    rcases le_or_gt ((sums.1 - sums.2) / (2 * (n : K))) 0 with hle | hpos
    · exact Or.inl hle
    · right
      have hquotient := div_neg_of_pos_of_neg hpos hspan
      linarith
  unfold invalidOscillationReason
  rw [pvAmpRaw_oscillationOf hn, pvAmpPercent_oscillationOf hn hdesc.ne]
  simp only [XNum.isFinite_fin, XNum.leZero_fin, Bool.not_true, Bool.or_self, Bool.or_eq_true,
    decide_eq_true_eq, hsign]
  simp

/-- An ascending range makes a measurement usable when the counted peaks exceed the counted troughs
and the recorded times span at least a millisecond. -/
theorem isUsable_oscillationOf (hn : 1 ≤ n) (hasc : low < high) (hsums : sums.2 < sums.1)
    (helapsed : 0 < elapsedMilliseconds first last) :
    (oscillationOf sums first last n ⟨high, low⟩).IsUsable := by
  have hnpos : (0 : K) < n := Nat.cast_pos.mpr hn
  have hraw : 0 < (sums.1 - sums.2) / (2 * (n : K)) :=
    div_pos (sub_pos.mpr hsums) (by positivity)
  have hpercent : 0 < (sums.1 - sums.2) / (2 * (n : K)) / (high - low) * 100 :=
    mul_pos (div_pos hraw (sub_pos.mpr hasc)) (by norm_num)
  have hmilliseconds : (0 : K) < (elapsedMilliseconds first last : K) := Int.cast_pos.mpr helapsed
  have hperiod : 0 < (elapsedMilliseconds first last : K) / 1000 / 60 / (n : K) := by positivity
  have hpi : (0 : K) < 2 * (pi32 : K) := mul_pos two_pos (Rat.cast_pos.mpr pi32_pos)
  have hfrequency : (oscillationOf sums first last n ⟨high, low⟩).frequency
      = .fin (2 * (pi32 : K) / ((elapsedMilliseconds first last : K) / 1000 / 60 / (n : K))) := by
    show XNum.fin (2 * (pi32 : K)) / (oscillationOf sums first last n ⟨high, low⟩).periodMinutes
      = _
    rw [periodMinutes_oscillationOf hn, XNum.fin_div_fin_of_ne _ hperiod.ne']
  refine ⟨_, _, _, _, ⟨hperiod, div_pos hpi hperiod, hraw, hpercent⟩, ?_⟩
  rw [← periodMinutes_oscillationOf hn ⟨high, low⟩, ← hfrequency,
    ← pvAmpRaw_oscillationOf hn ⟨high, low⟩, ← pvAmpPercent_oscillationOf hn hasc.ne']

/-- Without both, an ascending range is refused too. -/
theorem invalidOscillationReason_ascending (hn : 1 ≤ n) (hasc : low < high) :
    invalidOscillationReason (oscillationOf sums first last n ⟨high, low⟩) = none ↔
      sums.2 < sums.1 ∧ 0 < elapsedMilliseconds first last := by
  constructor
  · intro hnone
    have hnpos : (0 : K) < n := Nat.cast_pos.mpr hn
    unfold invalidOscillationReason at hnone
    rw [pvAmpRaw_oscillationOf hn, periodMinutes_oscillationOf hn] at hnone
    split_ifs at hnone with _ hamplitude _ hperiod
    simp only [XNum.leZero_fin, Bool.or_eq_true, decide_eq_true_eq, not_or, not_le]
      at hamplitude hperiod
    constructor
    · by_contra hle
      have hnonpos : sums.1 - sums.2 ≤ 0 := by linarith
      exact absurd (div_nonpos_of_nonpos_of_nonneg hnonpos (by positivity)) hamplitude.1.not_ge
    · by_contra hle
      have hnonpos : (elapsedMilliseconds first last : K) ≤ 0 :=
        Int.cast_nonpos.mpr (not_lt.mp hle)
      have hquotient : (elapsedMilliseconds first last : K) / 1000 / 60 / (n : K) ≤ 0 :=
        div_nonpos_of_nonpos_of_nonneg
          (div_nonpos_of_nonpos_of_nonneg
            (div_nonpos_of_nonpos_of_nonneg hnonpos (by norm_num)) (by norm_num)) hnpos.le
      exact absurd hquotient hperiod.not_ge
  · intro hboth
    exact invalidOscillationReason_of_usable (isUsable_oscillationOf hn hasc hboth.1 hboth.2)

/-- The result of a usable oscillation is valid exactly when the template can express it. -/
theorem status_of_usable {oscillation : Oscillation K} (husable : oscillation.IsUsable)
    (config : LoopConfig K) (template : DcsTemplate) (level : ResponseLevel) :
    (checkedResultFromTuning (calculateTuningResult oscillation config level) template).status
        = .valid ↔ Expressible config template level := by
  obtain ⟨period, frequency, raw, percent, ⟨_, hfrequency, _, hpercent⟩, rfl⟩ := husable
  have hpi64 : (0 : K) < (pi64 : K) := Rat.cast_pos.mpr pi64_pos
  have hpi32 : (0 : K) < (pi32 : K) := Rat.cast_pos.mpr pi32_pos
  have hdenominator : (pi64 : K) * percent ≠ 0 := (mul_pos hpi64 hpercent).ne'
  let tuning := calculateTuningResult ⟨.fin period, .fin frequency, .fin raw, .fin percent⟩
    config level
  have hkp : tuning.kp = .fin _ := XNum.fin_div_fin_of_ne _ hdenominator
  have hti : tuning.tiMinutes = .fin _ := XNum.fin_div_fin_of_ne _ hfrequency.ne'
  have htd : tuning.tdMinutes = .fin _ := XNum.fin_div_fin_of_ne _ hfrequency.ne'
  have hgain : (calculatePidParameters tuning template).proportional.isFinite = true ↔
      (template.proportionalType = .band →
        c1Table config.processType level config.controllerType ≠ 0 ∧
          config.relayAmpPercent ≠ 0) := by
    unfold calculatePidParameters
    rw [hkp]
    cases template.proportionalType with
    | gain => simp
    | band =>
      simp only [XNum.isFinite_fin_div_fin, decide_eq_true_eq, ne_eq, div_eq_zero_iff,
        hdenominator, or_false, mul_eq_zero, forall_const]
      show ¬((((c1Table config.processType level config.controllerType : ℚ) : K) = 0 ∨ (4 : K) = 0)
        ∨ config.relayAmpPercent = 0) ↔ _
      rw [Rat.cast_eq_zero, or_iff_left (by norm_num : (4 : K) ≠ 0), not_or]
  have htime : (lookup config.processType config.controllerType level : TuningConstants K).c2 * 2
      * (pi32 : K) / frequency ≠ 0 ↔ c2Table config.processType config.controllerType ≠ 0 := by
    show ((c2Table config.processType config.controllerType : ℚ) : K) * 2 * (pi32 : K) / frequency
      ≠ 0 ↔ _
    simp [hfrequency.ne', hpi32.ne']
  show (checkedResultFromTuning tuning template).status = .valid ↔ _
  rw [checkedResultFromTuning_valid_iff, isFinite_integral_iff hkp hti, hgain, htime, hkp, hti, htd,
    isFinite_derivative hkp htd, Expressible]
  simp only [XNum.isFinite_fin, true_and, and_true]
  tauto

/-! ### Both orders of one measurement -/

omit [LinearOrder K] [IsStrictOrderedRing K] in
/-- Sums that could be taken are the sums of the extrema that count. -/
theorem eq_countedSums {peaks troughs : List K} {firstSwitchIsPeak : Bool}
    (h : extremaSums peaks troughs firstSwitchIsPeak n = .ok sums) :
    sums = countedSums peaks troughs firstSwitchIsPeak := by
  cases firstSwitchIsPeak with
  | true =>
    simp only [extremaSums, if_true] at h
    split_ifs at h
    cases peaks with
    | nil => cases h
    | cons first rest =>
      injection h with h
      exact h.symm
  | false =>
    simp only [extremaSums, Bool.false_eq_true, if_false] at h
    split_ifs at h
    cases troughs with
    | nil => cases h
    | cons first rest =>
      injection h with h
      exact h.symm

omit [IsStrictOrderedRing K] in
/-- Only the amplitude percentage of a measurement depends on the PV range. -/
theorem measureOscillation_of_measured {peaks troughs : List K} {switchTimes : List UtcTime}
    {mvSignInit : ℤ} {direction : ControllerDirection} {config : LoopConfig K}
    {pvRange : PvRange K} {oscillation : Oscillation K}
    (h : measureOscillation peaks troughs switchTimes mvSignInit direction config pvRange
      = .ok oscillation) (other : PvRange K) :
    1 ≤ config.numCyclesCount.toNat ∧
      measureOscillation peaks troughs switchTimes mvSignInit direction config other
        = .ok (oscillationOf
          (countedSums peaks troughs (decide (mvSignInit * direction.actionMultiplier = 1)))
          (switchTimes.headD 0) (switchTimes.getLastD 0) config.numCyclesCount.toNat other) := by
  have hlength := length_of_measured h
  unfold measureOscillation at h ⊢
  dsimp only at h ⊢
  split_ifs at h ⊢ with hfew
  have hcount : 1 ≤ config.numCyclesCount.toNat := by omega
  refine ⟨hcount, ?_⟩
  have hne : switchTimes ≠ [] := by
    intro hnil
    rw [hnil] at hfew
    simp at hfew
  obtain ⟨first, rest, rfl⟩ := List.exists_cons_of_ne_nil hne
  cases hsums : extremaSums peaks troughs (decide (mvSignInit * direction.actionMultiplier = 1))
    config.numCyclesCount.toNat with
  | error panic =>
    rw [hsums] at h
    exact nomatch h
  | ok sums =>
    rw [← eq_countedSums hsums]
    simp only [List.head?_cons, List.getLast?_cons, List.headD_cons, List.getLastD_eq_getLast?,
      Option.getD_some]

/-- With the bounds in ascending order, the two orders agree exactly when no level has a valid
result. -/
theorem orientation_free_of_lt {peaks troughs : List K} {switchTimes : List UtcTime}
    {mvSignInit : ℤ} {direction : ControllerDirection} {config : LoopConfig K}
    {template : DcsTemplate} (hn : 1 ≤ config.numCyclesCount.toNat) (hasc : low < high)
    (hmeasured : ∀ pvRange,
      measureOscillation peaks troughs switchTimes mvSignInit direction config pvRange
        = .ok (oscillationOf sums first last config.numCyclesCount.toNat pvRange)) :
    OrientationFree peaks troughs switchTimes mvSignInit direction config template high low ↔
      ¬(sums.2 < sums.1 ∧ 0 < elapsedMilliseconds first last ∧
        ∃ level, Expressible config template level) := by
  let measured := fun pvRange => oscillationOf sums first last config.numCyclesCount.toNat pvRange
  have hnumbers : OrientationFree peaks troughs switchTimes mvSignInit direction config template
      high low ↔
      (checkedResults (measured ⟨high, low⟩) config template).map CheckedTuningResult.numbers
        = ResponseLevel.all.map fun level => (level, .invalid, none, none) := by
    have hrefused : invalidOscillationReason (measured ⟨low, high⟩) ≠ none :=
      invalidOscillationReason_descending hn hasc
    rw [OrientationFree, calculateAllChecked, calculateAllChecked, hmeasured, hmeasured,
      ← numbers_of_refused config template hrefused]
    constructor
    · intro hsame
      injection hsame
    · intro hsame
      exact congrArg Except.ok hsame
  rw [hnumbers]
  by_cases haccepted : sums.2 < sums.1 ∧ 0 < elapsedMilliseconds first last
  · have husable : (measured ⟨high, low⟩).IsUsable :=
      isUsable_oscillationOf hn hasc haccepted.1 haccepted.2
    rw [checkedResults, invalidOscillationReason_of_usable husable, List.map_map,
      List.map_inj_left]
    constructor
    · intro hall hboth
      obtain ⟨level, hlevel⟩ := hboth.2.2
      have hmem : level ∈ ResponseLevel.all := by cases level <;> simp [ResponseLevel.all]
      exact status_of_numbers (hall level hmem) ((status_of_usable husable config template level).mpr
        hlevel)
    · intro hnone level _
      apply numbers_of_status
      intro hvalid
      exact hnone ⟨haccepted.1, haccepted.2, level,
        (status_of_usable husable config template level).mp hvalid⟩
  · have hrefused : invalidOscillationReason (measured ⟨high, low⟩) ≠ none := by
      intro hnone
      exact haccepted ((invalidOscillationReason_ascending hn hasc).mp hnone)
    rw [numbers_of_refused config template hrefused]
    simp only [true_iff]
    intro hboth
    exact haccepted ⟨hboth.1, hboth.2.1⟩

/-- **When the order of the PV bounds does not matter.**  For a measured oscillation and two
distinct bounds, exactly when no order gives a valid result: the counted peaks do not exceed the
counted troughs, no whole millisecond passed, or the template can express no level. -/
theorem orientation_free_iff {peaks troughs : List K} {switchTimes : List UtcTime}
    {mvSignInit : ℤ} {direction : ControllerDirection} {config : LoopConfig K}
    (template : DcsTemplate) {p q : K} {oscillation : Oscillation K}
    (hmeasured : measureOscillation peaks troughs switchTimes mvSignInit direction config ⟨p, q⟩
      = .ok oscillation) (hpq : p ≠ q) :
    let sums := countedSums peaks troughs (decide (mvSignInit * direction.actionMultiplier = 1))
    OrientationFree peaks troughs switchTimes mvSignInit direction config template p q ↔
      ¬(sums.2 < sums.1 ∧
        0 < elapsedMilliseconds (switchTimes.headD 0) (switchTimes.getLastD 0) ∧
        ∃ level, Expressible config template level) := by
  intro sums
  have hn := (measureOscillation_of_measured hmeasured ⟨p, q⟩).1
  have hall := fun pvRange => (measureOscillation_of_measured hmeasured pvRange).2
  rcases lt_or_gt_of_ne hpq with hlt | hgt
  · -- the law is symmetric in the two bounds
    have hascending : OrientationFree peaks troughs switchTimes mvSignInit direction config template
        q p ↔ _ := orientation_free_of_lt hn hlt hall
    rw [← hascending]
    exact eq_comm
  · exact orientation_free_of_lt hn hgt hall

/-- A flow loop that has moved no PV agrees with itself. -/
theorem orientation_free_flat :
    OrientationFree [50, 50, 50] [50, 50]
      [seconds 8, seconds 12, seconds 16, seconds 20, seconds 24] 1 .reverse flowLoopConfig
      rateTemplate 100 0 := by
  obtain ⟨oscillation, hmeasured⟩ : ∃ oscillation, measureOscillation [50, 50, 50] [50, 50]
      [seconds 8, seconds 12, seconds 16, seconds 20, seconds 24] 1 .reverse flowLoopConfig
      (⟨100, 0⟩ : PvRange ℚ) = .ok oscillation := ⟨_, rfl⟩
  refine (orientation_free_iff rateTemplate hmeasured (by norm_num)).mpr ?_
  intro hboth
  revert hboth
  norm_num [countedSums, ControllerDirection.actionMultiplier]

/-- The completed run of the default flow loop is thrown away when its PV range, accepted by
`PvRange::new`, is descending. -/
theorem orientation_not_free_flow :
    Action.complete [55, 55, 55] [45, 45]
        [seconds 8, seconds 12, seconds 16, seconds 20, seconds 24] 1 ∈
      (MrftEngine.new .machine flowLoopConfig .reverse (BinaryFloat.f32 0.433) midRangeReadings
        0).actionsAt .machine swingingTicks 6 ∧
    PvRange.new (0 : ℚ) 100 = .ok ⟨0, 100⟩ ∧ rateTemplate.validate = .ok () ∧
    ¬OrientationFree [55, 55, 55] [45, 45]
      [seconds 8, seconds 12, seconds 16, seconds 20, seconds 24] 1 .reverse flowLoopConfig
      rateTemplate (100 : ℚ) 0 := by
  refine ⟨by decide +kernel, by decide, by decide, ?_⟩
  intro hfree
  have hstatus := congrArg (fun results => results.map (List.map fun numbers => numbers.2.1)) hfree
  revert hstatus
  decide +kernel

end Bhtune
