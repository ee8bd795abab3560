import Bhtune.Core.RelayWrites
import Bhtune.Runtime.Prepare

/-!
# The tolerance of a relay command

In exact arithmetic.

* `mvActuationTolerance_relay_iff` — which relay commands have a tolerance;
* `unmoved_never_matches` — what the tolerance tells apart;
* `validateRelayActuationStep_iff` — what the check before a run asks of the amplitude.
-/

namespace Bhtune

/-! ### The tolerance of a relay command -/

/-- A relay command is verified when its step is neither small nor lost in the precision. -/
theorem mvActuationTolerance_relay_iff (target previous mvSpan : ℚ) :
    (∃ tolerance, mvActuationTolerance .relay target previous mvSpan = .ok tolerance) ↔
      minRelayStep ≤ |target - previous| ∧
        f32PrecisionFloor target previous < |target - previous| * relayStepToleranceFraction := by
  rw [mvActuationTolerance_relay_rat]
  split_ifs with hsmall
  · simp only [exists_false, false_iff, not_and, not_lt]
    intro hstep
    exact hsmall.resolve_left (not_lt.mpr hstep)
  · rw [not_or, not_lt, not_le] at hsmall
    exact ⟨fun _ => hsmall, fun _ => ⟨_, rfl⟩⟩

theorem f32Epsilon_pos : 0 < 4 * f32Epsilon := by
  unfold f32Epsilon
  norm_num

theorem relayStepToleranceFraction_eq : relayStepToleranceFraction = 1 / 4 := by decide +kernel

theorem relayStepToleranceFraction_pos : 0 < relayStepToleranceFraction := by
  rw [relayStepToleranceFraction_eq]
  norm_num

theorem f32PrecisionFloor_pos (target previous : ℚ) : 0 < f32PrecisionFloor target previous := by
  rw [f32PrecisionFloor_rat]
  have hone : (0 : ℚ) < max (max |target| |previous|) 1 :=
    lt_of_lt_of_le one_pos (le_max_right _ _)
  exact mul_pos f32Epsilon_pos hone

theorem mvSpanToleranceFraction_pos : 0 < mvSpanToleranceFraction := by decide +kernel

/-! ### What the tolerance tells apart -/

/-- The tolerance of a relay command is at most a quarter of its step, and at least the precision
floor, which only a span of zero reaches. -/
theorem tolerance_bounds {target previous mvSpan tolerance : ℚ}
    (h : mvActuationTolerance .relay target previous mvSpan = .ok tolerance) :
    4 * tolerance ≤ |target - previous| ∧ f32PrecisionFloor target previous ≤ tolerance ∧
      (f32PrecisionFloor target previous < tolerance ↔ mvSpan ≠ 0) := by
  have hcap := ((mvActuationTolerance_relay_iff target previous mvSpan).mp ⟨tolerance, h⟩).2
  have hvalue : tolerance = min (mvActuationUncappedTolerance target previous mvSpan)
      (|target - previous| * relayStepToleranceFraction) := by
    rw [mvActuationTolerance_relay_rat] at h
    split_ifs at h
    injection h with h
    exact h.symm
  have hquarter : tolerance ≤ |target - previous| * relayStepToleranceFraction := by
    rw [hvalue]
    exact min_le_right _ _
  rw [relayStepToleranceFraction_eq] at hquarter
  have hspan : 0 ≤ |mvSpan| * mvSpanToleranceFraction :=
    mul_nonneg (abs_nonneg _) mvSpanToleranceFraction_pos.le
  refine ⟨by linarith, ?_, ?_⟩
  · rw [hvalue]
    refine le_min ?_ hcap.le
    rw [mvActuationUncappedTolerance_rat]
    linarith
  · rw [hvalue, lt_min_iff, mvActuationUncappedTolerance_rat]
    constructor
    · intro hlt hzero
      rw [hzero, abs_zero, zero_mul, add_zero] at hlt
      exact lt_irrefl _ hlt.1
    · intro hne
      refine ⟨?_, hcap⟩
      have hmore : 0 < |mvSpan| * mvSpanToleranceFraction :=
        mul_pos (abs_pos.mpr hne) mvSpanToleranceFraction_pos
      linarith

/-- **An unmoved valve never confirms a relay command.**  A readback within the tolerance of the
previous command stays three tolerances away from the target; the tolerance is above the precision
floor for every span but zero. -/
theorem unmoved_never_matches {target previous mvSpan tolerance : ℚ}
    (h : mvActuationTolerance .relay target previous mvSpan = .ok tolerance) :
    (∀ readback, |readback - previous| ≤ tolerance →
      tolerance < |readback - target| ∧ 2 * tolerance ≤ |readback - target| ∧
        actuationMatches target readback tolerance = false) ∧
    f32PrecisionFloor target previous ≤ tolerance ∧
      (f32PrecisionFloor target previous < tolerance ↔ mvSpan ≠ 0) := by
  obtain ⟨hquarter, hfloor, hstrict⟩ := tolerance_bounds h
  have hpos : 0 < tolerance := (f32PrecisionFloor_pos target previous).trans_le hfloor
  refine ⟨?_, hfloor, hstrict⟩
  intro readback hunmoved
  have htriangle : |target - previous| ≤ |target - readback| + |readback - previous| :=
    abs_sub_le target readback previous
  have hfar : 3 * tolerance ≤ |readback - target| := by
    rw [abs_sub_comm readback target]
    linarith
  refine ⟨by linarith, by linarith, ?_⟩
  unfold actuationMatches
  rw [abs_sub_comm] at hfar
  simp only [decide_eq_false_iff_not, not_le]
  linarith

/-- A relay step of ten over a span of a hundred. -/
theorem unmoved_never_matches_step :
    ∃ tolerance, mvActuationTolerance .relay (60 : ℚ) 50 100 = .ok tolerance ∧
      actuationMatches 60 50 tolerance = false ∧ f32PrecisionFloor (60 : ℚ) 50 < tolerance := by
  obtain ⟨tolerance, h⟩ := (mvActuationTolerance_relay_iff 60 50 100).mpr (by decide +kernel)
  obtain ⟨hunmoved, hfloor, hstrict⟩ := unmoved_never_matches h
  refine ⟨tolerance, h, (hunmoved 50 ?_).2.2, hstrict.mpr (by norm_num)⟩
  rw [sub_self, abs_zero]
  exact (f32PrecisionFloor_pos 60 50).le.trans hfloor

/-- With a span of zero the tolerance is the precision floor itself. -/
theorem tolerance_reaches_floor :
    ∃ tolerance, mvActuationTolerance .relay (60 : ℚ) 50 0 = .ok tolerance ∧
      ¬f32PrecisionFloor (60 : ℚ) 50 < tolerance := by
  obtain ⟨tolerance, h⟩ := (mvActuationTolerance_relay_iff 60 50 0).mpr (by decide +kernel)
  refine ⟨tolerance, h, ?_⟩
  intro hlt
  exact (tolerance_bounds h).2.2.mp hlt rfl

/-! ### Accepted steps -/

section Accepted

variable (ctx : RunContext) (initial : InitialState)

/-- The amplitude of the relay of a run. -/
def relayAmplitude : ℚ :=
  clampRelayAmplitude ctx.config.relayAmpPercent initial.mvIni initial.mvRangeLow
    initial.mvRangeHigh

variable {ctx initial}

/-- What the check before a run asks of the amplitude. -/
theorem validateRelayActuationStep_iff (hdriver : ctx.driver = .opcda)
    (hexact : ctx.floats = .exact) (hnonneg : 0 ≤ relayAmplitude ctx initial) :
    validateRelayActuationStep ctx initial = .ok () ↔
      minRelayStep ≤ relayAmplitude ctx initial ∧
        f32PrecisionFloor (initial.mvIni + relayAmplitude ctx initial) initial.mvIni <
          relayAmplitude ctx initial * relayStepToleranceFraction := by
  have htolerance := mvActuationTolerance_relay_iff
    (initial.mvIni + relayAmplitude ctx initial) initial.mvIni
    (initial.mvRangeHigh - initial.mvRangeLow)
  rw [add_sub_cancel_left, abs_of_nonneg hnonneg] at htolerance
  rw [← htolerance]
  unfold validateRelayActuationStep
  rw [if_neg (not_not.mpr hdriver), hexact]
  show Except.map _ (mvActuationTolerance .relay (initial.mvIni + relayAmplitude ctx initial)
    initial.mvIni _) = _ ↔ _
  cases mvActuationTolerance .relay (initial.mvIni + relayAmplitude ctx initial) initial.mvIni
    (initial.mvRangeHigh - initial.mvRangeLow) <;> simp [Except.map]

/-- The amplitude of a valid run is not negative. -/
theorem relayAmplitude_nonneg (hconfig : ctx.config.validate = .ok ())
    (hinitial : validateInitialState initial = .ok ()) : 0 ≤ relayAmplitude ctx initial := by
  obtain ⟨_, _, hlow, hhigh⟩ := (validateInitialState_iff initial).mp hinitial
  exact (clamp_within (LoopConfig.relayAmpPercent_pos_of_validate hconfig).le
    (LoopConfig.relayAmpPercent_le_of_validate hconfig) hlow hhigh).1

end Accepted

end Bhtune
