import Bhtune.Core.RelayRun
import Bhtune.Core.TuningMath
import Mathlib.Algebra.BigOperators.Group.List.Basic
import Mathlib.Tactic.Linarith
import Mathlib.Tactic.Ring

/-!
# Units and signs of the PV do not matter

Replacing every PV by `a * pv + b`, with the direction reversed when `a` is negative, commutes
with every function of the engine: `mapPv` is the change of the state, and `step_mapPv` says that
stepping and changing units may be exchanged.  Peaks and troughs change roles when `a` is negative.

* `step_mapPv`, `stateAfter_mapPv` — one step, and a whole run;
* `measureOscillation_mapPv` — the measurement of the mapped extrema;
* `run_equivariant` — the same writes, switch times and tuning results.
-/

namespace Bhtune

open BinaryFloat MachineInt

variable {K : Type*} [Field K] [LinearOrder K]

/-! ### Changing the units of the PV -/

/-- The PV in the new units. -/
def affine (a b x : K) : K := a * x + b

/-- The direction that belongs to the new units. -/
def ControllerDirection.mapPv (a : K) (direction : ControllerDirection) : ControllerDirection :=
  if a < 0 then direction.opposite else direction

/-- A sample in the new units. -/
def Tick.mapPv (a b : K) (tick : Tick K) : Tick K := { tick with pv := affine a b tick.pv }

/-- The initial readings in the new units. -/
def InitialReadings.mapPv (a b : K) (initial : InitialReadings K) : InitialReadings K :=
  { initial with pvIni := affine a b initial.pvIni }

/-- An action in the new units: writes are MV values and stay as they are. -/
def Action.mapPv (a b : K) : Action K → Action K
  | .writeMv v => .writeMv v
  | .complete peaks troughs switchTimes mvSignInit =>
    if a < 0 then
      .complete (troughs.map (affine a b)) (peaks.map (affine a b)) switchTimes mvSignInit
    else .complete (peaks.map (affine a b)) (troughs.map (affine a b)) switchTimes mvSignInit

namespace MrftEngine

/-- An engine in the new units. -/
def mapPv (a b : K) (e : MrftEngine K) : MrftEngine K :=
  { e with
    actionMultiplier := if a < 0 then -e.actionMultiplier else e.actionMultiplier
    pvValueIni := affine a b e.pvValueIni
    maxPvCycle := affine a b (if a < 0 then e.minPvCycle else e.maxPvCycle)
    minPvCycle := affine a b (if a < 0 then e.maxPvCycle else e.minPvCycle)
    maxPvResult := affine a b (if a < 0 then e.minPvResult else e.maxPvResult)
    minPvResult := affine a b (if a < 0 then e.maxPvResult else e.minPvResult)
    hysteresis := |a| * e.hysteresis
    peaks := (if a < 0 then e.troughs else e.peaks).map (affine a b)
    troughs := (if a < 0 then e.peaks else e.troughs).map (affine a b) }

variable {ar : IntArith} {e : MrftEngine K} {tick : Tick K} {a b : K}

theorem new_mapPv (config : LoopConfig K) (direction : ControllerDirection) (beta : K)
    (initial : InitialReadings K) (startTime : UtcTime) :
    new ar config (direction.mapPv a) beta (initial.mapPv a b) startTime
      = (new ar config direction beta initial startTime).mapPv a b := by
  ext : 1 <;> simp only [new, mapPv, InitialReadings.mapPv, ite_self, mul_zero, List.map_nil]
  rw [ControllerDirection.mapPv]
  split_ifs
  · exact direction.actionMultiplier_opposite
  · rfl

variable [IsStrictOrderedRing K]

theorem max_affine (ha : 0 < a) (x y : K) :
    max (affine a b x) (affine a b y) = affine a b (max x y) := by
  rw [affine, affine, affine, max_add_add_right, ← mul_max_of_nonneg _ _ ha.le]

theorem min_affine (ha : 0 < a) (x y : K) :
    min (affine a b x) (affine a b y) = affine a b (min x y) := by
  rw [affine, affine, affine, min_add_add_right, ← mul_min_of_nonneg _ _ ha.le]

theorem max_affine_of_neg (ha : a < 0) (x y : K) :
    max (affine a b x) (affine a b y) = affine a b (min x y) := by
  rcases le_total x y with hxy | hxy
  · rw [min_eq_left hxy, max_eq_left]
    exact add_le_add_left (mul_le_mul_of_nonpos_left hxy ha.le) b
  · rw [min_eq_right hxy, max_eq_right]
    exact add_le_add_left (mul_le_mul_of_nonpos_left hxy ha.le) b

theorem min_affine_of_neg (ha : a < 0) (x y : K) :
    min (affine a b x) (affine a b y) = affine a b (max x y) := by
  rcases le_total x y with hxy | hxy
  · rw [max_eq_right hxy, min_eq_right]
    exact add_le_add_left (mul_le_mul_of_nonpos_left hxy ha.le) b
  · rw [max_eq_left hxy, min_eq_left]
    exact add_le_add_left (mul_le_mul_of_nonpos_left hxy ha.le) b

omit [LinearOrder K] [IsStrictOrderedRing K] in
theorem affine_sub_affine (x y : K) : affine a b x - affine a b y = a * (x - y) := by
  rw [affine, affine]
  ring

/-- The relay law on its own: the next sign from the deviation and the hysteresis. -/
def nextSign (actionMultiplier mvSignPrevious : ℤ) (spPvDiff hysteresis : K) : ℤ :=
  if actionMultiplier = 1 then if spPvDiff + mvSignPrevious * hysteresis ≥ 0 then 1 else -1
  else if spPvDiff - mvSignPrevious * hysteresis ≤ 0 then 1 else -1

omit [IsStrictOrderedRing K] in
theorem observe_mvSignNextStep_eq (e : MrftEngine K) (tick : Tick K) :
    (e.observe tick).mvSignNextStep =
      nextSign e.actionMultiplier (if e.mvValueCurrent ≥ e.mvValueIni then 1 else -1)
        (e.pvValueIni - tick.pv) (e.observe tick).hysteresis := rfl

/-- **The relay law does not see the units.**  The `≥` of one direction is the `≤` of the
other. -/
theorem nextSign_mapPv (ha : a ≠ 0) {actionMultiplier : ℤ}
    (hm : actionMultiplier = 1 ∨ actionMultiplier = -1) (mvSignPrevious : ℤ)
    (spPvDiff hysteresis : K) :
    nextSign (if a < 0 then -actionMultiplier else actionMultiplier) mvSignPrevious
        (a * spPvDiff) (|a| * hysteresis)
      = nextSign actionMultiplier mvSignPrevious spPvDiff hysteresis := by
  rcases lt_or_gt_of_ne ha with hneg | hpos
  · have hflip : ∀ x : K, (a * x ≤ 0 ↔ x ≥ 0) ∧ (a * x ≥ 0 ↔ x ≤ 0) := by
      intro x
      have hopposite : a * x = -(-a * x) := by ring
      have hpos : 0 < -a := neg_pos.mpr hneg
      constructor
      · rw [hopposite, neg_nonpos, mul_nonneg_iff_of_pos_left hpos]
      · rw [hopposite, ge_iff_le, neg_nonneg, ← not_lt, mul_pos_iff_of_pos_left hpos, not_lt]
    rw [if_pos hneg, abs_of_neg hneg]
    rcases hm with rfl | rfl
    · have hvalue : a * spPvDiff - mvSignPrevious * (-a * hysteresis)
          = a * (spPvDiff + mvSignPrevious * hysteresis) := by ring
      rw [nextSign, nextSign, if_neg (by decide), if_pos rfl, hvalue]
      exact if_congr (hflip _).1 rfl rfl
    · have hvalue : a * spPvDiff + mvSignPrevious * (-a * hysteresis)
          = a * (spPvDiff - mvSignPrevious * hysteresis) := by ring
      rw [nextSign, nextSign, if_pos (neg_neg 1), if_neg (show ¬(-1 : ℤ) = 1 by decide), hvalue]
      exact if_congr (hflip _).2 rfl rfl
  · have hkeep : ∀ x : K, (a * x ≤ 0 ↔ x ≤ 0) ∧ (a * x ≥ 0 ↔ x ≥ 0) := by
      intro x
      refine ⟨?_, mul_nonneg_iff_of_pos_left hpos⟩
      rw [← not_lt, mul_pos_iff_of_pos_left hpos, not_lt]
    rw [if_neg hpos.not_gt, abs_of_pos hpos]
    have hplus : a * spPvDiff + mvSignPrevious * (a * hysteresis)
        = a * (spPvDiff + mvSignPrevious * hysteresis) := by ring
    have hminus : a * spPvDiff - mvSignPrevious * (a * hysteresis)
        = a * (spPvDiff - mvSignPrevious * hysteresis) := by ring
    rw [nextSign, nextSign, hplus, hminus]
    exact if_congr Iff.rfl (if_congr (hkeep _).2 rfl rfl) (if_congr (hkeep _).1 rfl rfl)

/-- The deviation the hysteresis is built from scales with `|a|`. -/
theorem deviation_mapPv (ha : a ≠ 0) (ini high low : K) :
    max (affine a b (if a < 0 then low else high) - affine a b ini)
        (affine a b ini - affine a b (if a < 0 then high else low))
      = |a| * max (high - ini) (ini - low) := by
  rw [affine_sub_affine, affine_sub_affine]
  rcases lt_or_gt_of_ne ha with hneg | hpos
  · have hlow : a * (low - ini) = -a * (ini - low) := by ring
    have hhigh : a * (ini - high) = -a * (high - ini) := by ring
    rw [if_pos hneg, if_pos hneg, abs_of_neg hneg, hlow, hhigh,
      ← mul_max_of_nonneg _ _ (neg_nonneg.mpr hneg.le), max_comm]
  · rw [if_neg hpos.not_gt, if_neg hpos.not_gt, abs_of_pos hpos,
      ← mul_max_of_nonneg _ _ hpos.le]

theorem max_mapPv (ha : a ≠ 0) (high low pv : K) :
    max (affine a b (if a < 0 then low else high)) (affine a b pv)
      = affine a b (if a < 0 then min low pv else max high pv) := by
  rcases lt_or_gt_of_ne ha with hneg | hpos
  · rw [if_pos hneg, if_pos hneg, max_affine_of_neg hneg]
  · rw [if_neg hpos.not_gt, if_neg hpos.not_gt, max_affine hpos]

theorem min_mapPv (ha : a ≠ 0) (high low pv : K) :
    min (affine a b (if a < 0 then high else low)) (affine a b pv)
      = affine a b (if a < 0 then max high pv else min low pv) := by
  rcases lt_or_gt_of_ne ha with hneg | hpos
  · rw [if_pos hneg, if_pos hneg, min_affine_of_neg hneg]
  · rw [if_neg hpos.not_gt, if_neg hpos.not_gt, min_affine hpos]

/-! ### One step in the new units -/

omit [IsStrictOrderedRing K] in
theorem hysteresis_observe (e : MrftEngine K) (tick : Tick K) :
    (e.observe tick).hysteresis =
      e.beta * max (max e.maxPvCycle tick.pv - e.pvValueIni)
        (e.pvValueIni - min e.minPvCycle tick.pv) := rfl

theorem hysteresis_observe_mapPv (ha : a ≠ 0) :
    ((e.mapPv a b).observe (tick.mapPv a b)).hysteresis = |a| * (e.observe tick).hysteresis := by
  rw [hysteresis_observe, hysteresis_observe]
  show e.beta * max (max (affine a b (if a < 0 then e.minPvCycle else e.maxPvCycle))
        (affine a b tick.pv) - affine a b e.pvValueIni)
      (affine a b e.pvValueIni
        - min (affine a b (if a < 0 then e.maxPvCycle else e.minPvCycle)) (affine a b tick.pv))
    = _
  rw [max_mapPv ha, min_mapPv ha, deviation_mapPv ha]
  ring

theorem observe_mapPv (ha : a ≠ 0) (hm : e.actionMultiplier = 1 ∨ e.actionMultiplier = -1) :
    (e.mapPv a b).observe (tick.mapPv a b) = (e.observe tick).mapPv a b := by
  have hsign : ((e.mapPv a b).observe (tick.mapPv a b)).mvSignNextStep
      = (e.observe tick).mvSignNextStep := by
    rw [observe_mvSignNextStep_eq, hysteresis_observe_mapPv ha, observe_mvSignNextStep_eq]
    show nextSign (if a < 0 then -e.actionMultiplier else e.actionMultiplier) _
      (affine a b e.pvValueIni - affine a b tick.pv) _ = _
    rw [affine_sub_affine]
    exact nextSign_mapPv ha hm _ _ _
  ext : 1
  case maxPvCycle => exact max_mapPv ha _ _ _
  case minPvCycle => exact min_mapPv ha _ _ _
  case maxPvResult => exact max_mapPv ha _ _ _
  case minPvResult => exact min_mapPv ha _ _ _
  case hysteresis => exact hysteresis_observe_mapPv ha
  case mvSignNextStep => exact hsign
  case mvSignInit =>
    rw [observe_mvSignInit, hsign]
    rfl
  case mvValueNextStep =>
    rw [observe_mvValueNextStep, hsign]
    rfl
  all_goals rfl

omit [LinearOrder K] [IsStrictOrderedRing K] in
/-- Recording an extremum in the new units: the two sides may have changed roles (`c`). -/
theorem record_mapPv (c : Prop) [Decidable c] (record isFirst : Bool) (xs ys : List K) (x y : K) :
    (if record && (if c then !isFirst else isFirst) then
        (if c then ys else xs).map (affine a b) ++ [affine a b (if c then y else x)]
      else (if c then ys else xs).map (affine a b))
      = (if c then (if record && !isFirst then ys ++ [y] else ys)
          else (if record && isFirst then xs ++ [x] else xs)).map (affine a b) := by
  by_cases hc : c <;> cases record <;> cases isFirst <;> simp [hc]

omit [IsStrictOrderedRing K] in
theorem performSwitch_mapPv (hm : e.actionMultiplier = 1 ∨ e.actionMultiplier = -1)
    (hs : e.mvSignNextStep = 1 ∨ e.mvSignNextStep = -1) :
    (e.mapPv a b).performSwitch ar (tick.mapPv a b) =
      ((e.performSwitch ar tick).1.mapPv a b, (e.performSwitch ar tick).2) := by
  -- a switch that records a peak in one unit records a trough in the reversed one
  have hpeak : decide (e.mvSignNextStep * (e.mapPv a b).actionMultiplier = 1)
      = if a < 0 then !decide (e.mvSignNextStep * e.actionMultiplier = 1)
        else decide (e.mvSignNextStep * e.actionMultiplier = 1) := by
    show decide (e.mvSignNextStep * (if a < 0 then -e.actionMultiplier else e.actionMultiplier) = 1)
      = _
    split_ifs
    · rcases hm with hm | hm <;> rcases hs with hs | hs <;> rw [hm, hs] <;> decide
    · rfl
  have htrough : (!decide (e.mvSignNextStep * (e.mapPv a b).actionMultiplier = 1))
      = if a < 0 then decide (e.mvSignNextStep * e.actionMultiplier = 1)
        else !decide (e.mvSignNextStep * e.actionMultiplier = 1) := by
    rw [hpeak]
    split_ifs
    · exact Bool.not_not _
    · rfl
  refine Prod.ext ?_ rfl
  ext : 1
  case maxPvResult => exact congrArg (affine a b) (ite_self tick.pv).symm
  case minPvResult => exact congrArg (affine a b) (ite_self tick.pv).symm
  case maxPvCycle => exact congrArg (affine a b) (ite_self e.pvValueIni).symm
  case minPvCycle => exact congrArg (affine a b) (ite_self e.pvValueIni).symm
  case peaks =>
    show (if _ && decide (e.mvSignNextStep * (e.mapPv a b).actionMultiplier = 1) then
        (e.mapPv a b).peaks ++ [(e.mapPv a b).maxPvResult] else (e.mapPv a b).peaks) = _
    rw [hpeak]
    exact record_mapPv (a < 0) _ _ e.peaks e.troughs e.maxPvResult e.minPvResult
  case troughs =>
    show (if _ && !decide (e.mvSignNextStep * (e.mapPv a b).actionMultiplier = 1) then
        (e.mapPv a b).troughs ++ [(e.mapPv a b).minPvResult] else (e.mapPv a b).troughs) = _
    rw [htrough]
    have hrecord := record_mapPv (a := a) (b := b) (a < 0)
      (decide (ar.u32 (e.counterAllSwitches + 1) ≥ e.numSwitchesSkip))
      (!decide (e.mvSignNextStep * e.actionMultiplier = 1))
      e.troughs e.peaks e.minPvResult e.maxPvResult
    rw [Bool.not_not] at hrecord
    exact hrecord
  all_goals rfl

omit [IsStrictOrderedRing K] in
theorem finishStep_mapPv (writes : List (Action K)) (hwrites : writes.map (Action.mapPv a b) = writes) :
    finishStep ar (e.mapPv a b) writes =
      ((finishStep ar e writes).1.mapPv a b,
        (finishStep ar e writes).2.map (Action.mapPv a b)) := by
  have hcomplete : (e.mapPv a b).isComplete ar = e.isComplete ar := rfl
  have haction : (e.mapPv a b).completeAction = e.completeAction.mapPv a b := by
    show Action.complete ((if a < 0 then e.troughs else e.peaks).map (affine a b))
      ((if a < 0 then e.peaks else e.troughs).map (affine a b)) e.switchTimes e.mvSignInit = _
    simp only [completeAction, Action.mapPv]
    split_ifs <;> rfl
  rw [finishStep, finishStep, hcomplete]
  split_ifs
  · rw [haction, List.map_append, hwrites]
    rfl
  · rw [hwrites]

/-- **Changing units and stepping may be exchanged.** -/
theorem step_mapPv (ha : a ≠ 0) (hm : e.actionMultiplier = 1 ∨ e.actionMultiplier = -1) :
    (e.mapPv a b).step ar (tick.mapPv a b) =
      ((e.step ar tick).1.mapPv a b, (e.step ar tick).2.map (Action.mapPv a b)) := by
  by_cases hc : e.completed = true
  · have hc' : (e.mapPv a b).completed = true := hc
    rw [step_of_completed hc, step_of_completed hc']
    rfl
  · have hrun : e.completed = false := by simpa using hc
    have hrun' : (e.mapPv a b).completed = false := hrun
    have hrequired : ((e.mapPv a b).observe (tick.mapPv a b)).switchRequired (tick.mapPv a b)
        = (e.observe tick).switchRequired tick := by
      rw [observe_mapPv ha hm]
      rfl
    by_cases hs : (e.observe tick).switchRequired tick = true
    · rw [step_of_switch hrun hs, step_of_switch hrun' (hrequired.trans hs), observe_mapPv ha hm,
        performSwitch_mapPv (e := e.observe tick) hm (observe_mvSignNextStep e tick)]
      exact finishStep_mapPv _ rfl
    · have hs' : (e.observe tick).switchRequired tick = false := by simpa using hs
      rw [step_of_no_switch hrun hs', step_of_no_switch hrun' (hrequired.trans hs'),
        observe_mapPv ha hm]
      exact finishStep_mapPv [] rfl

/-- **The two runs stay in lock step.** -/
theorem stateAfter_mapPv (ha : a ≠ 0)
    (hm : e.actionMultiplier = 1 ∨ e.actionMultiplier = -1) (ticks : ℕ → Tick K) (n : ℕ) :
    (e.mapPv a b).stateAfter ar (fun k => (ticks k).mapPv a b) n
      = (e.stateAfter ar ticks n).mapPv a b := by
  refine StepMachine.stateAt_related
    (fun s t : MrftEngine K => s = t.mapPv a b ∧
      (t.actionMultiplier = 1 ∨ t.actionMultiplier = -1)) ⟨rfl, hm⟩ ?_ n |>.1
  rintro s t k ⟨rfl, ht⟩
  refine ⟨congrArg Prod.fst (step_mapPv ha ht), ?_⟩
  have hkeep : (t.step ar (ticks k)).1.actionMultiplier = t.actionMultiplier :=
    congrArg Setup.actionMultiplier setup_step
  rw [hkeep]
  exact ht

theorem actionsAt_mapPv (ha : a ≠ 0)
    (hm : e.actionMultiplier = 1 ∨ e.actionMultiplier = -1) (ticks : ℕ → Tick K) (n : ℕ) :
    (e.mapPv a b).actionsAt ar (fun k => (ticks k).mapPv a b) n
      = (e.actionsAt ar ticks n).map (Action.mapPv a b) := by
  have hsetup : (e.stateAfter ar ticks n).actionMultiplier = e.actionMultiplier :=
    congrArg Setup.actionMultiplier (setup_stateAfter ticks n)
  show (((e.mapPv a b).stateAfter ar (fun k => (ticks k).mapPv a b) n).step ar
    ((ticks n).mapPv a b)).2 = _
  rw [stateAfter_mapPv ha hm]
  exact congrArg Prod.snd (step_mapPv ha (by rw [hsetup]; exact hm))

end MrftEngine

/-! ### The measurement in the new units -/

/-- A panic about the peaks of one run is one about the troughs of the reversed run. -/
def MeasurePanic.mirror : MeasurePanic → MeasurePanic
  | .peaksLength left right => .troughsLength left right
  | .troughsLength left right => .peaksLength left right
  | panic => panic

section Measure

variable {a b : K}

omit [LinearOrder K] in
theorem sum_map_affine (xs : List K) :
    (xs.map (affine a b)).sum = a * xs.sum + b * (xs.length : K) := by
  induction xs with
  | nil => simp
  | cons x rest ih =>
    rw [List.map_cons, List.sum_cons, ih, List.sum_cons, List.length_cons, affine]
    push_cast
    ring

omit [LinearOrder K] in
/-- In reversed units the two sides of the sums change places, with the same offset. -/
theorem extremaSums_mapPv (c : Prop) [Decidable c] (peaks troughs : List K) (first : Bool)
    (n : ℕ) :
    extremaSums ((if c then troughs else peaks).map (affine a b))
        ((if c then peaks else troughs).map (affine a b)) (if c then !first else first) n
      = match extremaSums peaks troughs first n with
        | .error panic => .error (if c then panic.mirror else panic)
        | .ok sums => .ok (a * (if c then sums.2 else sums.1) + b * (n : K),
            a * (if c then sums.1 else sums.2) + b * (n : K)) := by
  have hslice : ∀ xs : List K, xs.length = n + 1 →
      sliceFromOne xs = .ok xs.tail ∧ xs.tail.length = n := by
    intro xs hlen
    exact ⟨sliceFromOne_ok (by omega), by rw [List.length_tail, hlen, Nat.add_sub_cancel]⟩
  have hmap : ∀ xs : List K, xs.length = n + 1 →
      sliceFromOne (xs.map (affine a b)) = .ok (xs.tail.map (affine a b)) := by
    intro xs hlen
    rw [sliceFromOne_ok (by rw [List.length_map]; omega), List.map_tail]
  by_cases hc : c <;> cases first <;>
    simp only [hc, if_true, if_false, Bool.not_true, Bool.not_false, extremaSums,
      List.length_map, Bool.false_eq_true] <;>
    split_ifs with h₁ h₂ <;> try rfl
  all_goals
    rw [not_not] at h₁ h₂
    obtain ⟨hsum, htail⟩ := hslice _ h₁
    rw [hmap _ h₁, hsum]
    simp only [Except.map, sum_map_affine, htail, h₂]

variable [IsStrictOrderedRing K]

/-- The measured values: only the raw amplitude changes, by the factor `|a|`. -/
theorem oscillationOf_mapPv (ha : a ≠ 0) {n : ℕ} (hn : n ≠ 0) (sums : K × K)
    (first last : UtcTime) {pvRange pvRange' : PvRange K}
    (hspan : pvRange'.high - pvRange'.low = |a| * (pvRange.high - pvRange.low)) :
    oscillationOf (a * (if a < 0 then sums.2 else sums.1) + b * (n : K),
        a * (if a < 0 then sums.1 else sums.2) + b * (n : K)) first last n pvRange'
      = { oscillationOf sums first last n pvRange with
          pvAmpRaw := XNum.fin |a| * (oscillationOf sums first last n pvRange).pvAmpRaw } := by
  have hcount : 2 * (n : K) ≠ 0 := mul_ne_zero two_ne_zero (Nat.cast_ne_zero.mpr hn)
  have hdiff : a * (if a < 0 then sums.2 else sums.1) + b * (n : K)
      - (a * (if a < 0 then sums.1 else sums.2) + b * (n : K)) = |a| * (sums.1 - sums.2) := by
    rcases lt_or_gt_of_ne ha with hneg | hpos
    · rw [if_pos hneg, if_pos hneg, abs_of_neg hneg]
      ring
    · rw [if_neg hpos.not_gt, if_neg hpos.not_gt, abs_of_pos hpos]
      ring
  have hraw : (XNum.fin (|a| * (sums.1 - sums.2)) / XNum.fin (2 * (n : K)) : XNum K)
      = XNum.fin (|a| * ((sums.1 - sums.2) / (2 * (n : K)))) := by
    rw [XNum.fin_div_fin_of_ne _ hcount, mul_div_assoc]
  simp only [oscillationOf]
  rw [hdiff, hraw, hspan, XNum.fin_div_fin_scale _ _ (abs_pos.mpr ha),
    XNum.fin_div_fin_of_ne _ hcount, XNum.fin_mul_fin]

/-- **The measurement of the mapped extrema.**  Panics included, only the raw amplitude and the
names of the two sides differ. -/
theorem measureOscillation_mapPv (ha : a ≠ 0) (peaks troughs : List K)
    (switchTimes : List UtcTime) {mvSignInit : ℤ} (hm : mvSignInit = 1 ∨ mvSignInit = -1)
    (direction : ControllerDirection) (config : LoopConfig K) {pvRange pvRange' : PvRange K}
    (hspan : pvRange'.high - pvRange'.low = |a| * (pvRange.high - pvRange.low)) :
    measureOscillation ((if a < 0 then troughs else peaks).map (affine a b))
        ((if a < 0 then peaks else troughs).map (affine a b)) switchTimes mvSignInit
        (direction.mapPv a) config pvRange'
      = match measureOscillation peaks troughs switchTimes mvSignInit direction config pvRange with
        | .error panic => .error (if a < 0 then panic.mirror else panic)
        | .ok osc => .ok { osc with pvAmpRaw := XNum.fin |a| * osc.pvAmpRaw } := by
  have hfirst : decide (mvSignInit * (direction.mapPv a).actionMultiplier = 1)
      = if a < 0 then !decide (mvSignInit * direction.actionMultiplier = 1)
        else decide (mvSignInit * direction.actionMultiplier = 1) := by
    rw [ControllerDirection.mapPv]
    split_ifs
    · rcases hm with rfl | rfl <;> cases direction <;> decide
    · rfl
  rw [measureOscillation, measureOscillation, hfirst, extremaSums_mapPv]
  by_cases hfew : switchTimes.length < 2
  · rw [if_pos hfew, if_pos hfew]
    exact congrArg Except.error (ite_self _).symm
  · rw [if_neg hfew, if_neg hfew]
    by_cases hlen : switchTimes.length = config.numCyclesCount.toNat * 2 + 1
    · rw [if_neg (not_not.mpr hlen), if_neg (not_not.mpr hlen)]
      cases extremaSums peaks troughs (decide (mvSignInit * direction.actionMultiplier = 1))
          config.numCyclesCount.toNat with
      | error panic => rfl
      | ok sums =>
        have hn : config.numCyclesCount.toNat ≠ 0 := by omega
        cases switchTimes.head? with
        | none => exact congrArg Except.error (ite_self _).symm
        | some first =>
          cases switchTimes.getLast? with
          | none => exact congrArg Except.error (ite_self _).symm
          | some last => exact congrArg Except.ok (oscillationOf_mapPv ha hn sums first last hspan)
    · rw [if_pos hlen, if_pos hlen]
      exact congrArg Except.error (ite_self _).symm

end Measure

/-! ### The sign a completion reports -/

namespace MrftEngine

variable {ar : IntArith} {e : MrftEngine K} {tick : Tick K}

/-- Once a tick has been seen, the first sign is `1` or `-1`; this needs nothing of the
counters. -/
def SignInv (e : MrftEngine K) : Prop :=
  e.counterAllSwitches = 0 ∨ e.mvSignInit = 1 ∨ e.mvSignInit = -1

theorem SignInv.observe (h : SignInv e) :
    (e.observe tick).mvSignInit = 1 ∨ (e.observe tick).mvSignInit = -1 := by
  rw [observe_mvSignInit]
  split_ifs with hzero
  · exact observe_mvSignNextStep e tick
  · exact h.resolve_left hzero

omit [Field K] [LinearOrder K] in
theorem mvSignInit_finishStep (writes : List (Action K)) :
    (finishStep ar e writes).1.mvSignInit = e.mvSignInit := by
  rw [finishStep]
  split_ifs <;> rfl

theorem mvSignInit_step (hc : e.completed = false) :
    (e.step ar tick).1.mvSignInit = (e.observe tick).mvSignInit := by
  by_cases hs : (e.observe tick).switchRequired tick = true
  · rw [step_of_switch hc hs, mvSignInit_finishStep]
    rfl
  · rw [step_of_no_switch hc (by simpa using hs), mvSignInit_finishStep]

theorem SignInv.step (h : SignInv e) : SignInv (e.step ar tick).1 := by
  by_cases hc : e.completed = true
  · rw [step_of_completed hc]
    exact h
  · right
    rw [mvSignInit_step (by simpa using hc)]
    exact h.observe

theorem SignInv.stateAfter (h : SignInv e) (ticks : ℕ → Tick K) (n : ℕ) :
    SignInv (e.stateAfter ar ticks n) :=
  StepMachine.stateAt_invariant SignInv h (fun _ _ ha => ha.step) n

/-- A completion reports the sign of the state it leaves behind. -/
theorem SignInv.complete_mem (h : SignInv e) {peaks troughs : List K} {switchTimes : List UtcTime}
    {mvSignInit : ℤ}
    (hmem : Action.complete peaks troughs switchTimes mvSignInit ∈ (e.step ar tick).2) :
    mvSignInit = 1 ∨ mvSignInit = -1 := by
  have hreport : ∀ (s : MrftEngine K) (writes : List (Action K)),
      (∀ p t u m, Action.complete p t u m ∉ writes) →
      Action.complete peaks troughs switchTimes mvSignInit ∈ (finishStep ar s writes).2 →
      mvSignInit = s.mvSignInit := by
    intro s writes hnone hin
    rw [finishStep] at hin
    split_ifs at hin
    · rcases List.mem_append.mp hin with hwrite | hlast
      · exact absurd hwrite (hnone _ _ _ _)
      · injection List.mem_singleton.mp hlast
    · exact absurd hin (hnone _ _ _ _)
  by_cases hc : e.completed = true
  · rw [step_of_completed hc] at hmem
    exact absurd hmem List.not_mem_nil
  · have hrun : e.completed = false := by simpa using hc
    by_cases hs : (e.observe tick).switchRequired tick = true
    · rw [step_of_switch hrun hs] at hmem
      have hnone : ∀ p t u m, Action.complete p t u m ∉
          [Action.writeMv ((e.observe tick).performSwitch ar tick).2] := by
        intro p t u m hin
        cases List.mem_singleton.mp hin
      rw [hreport _ _ hnone hmem]
      exact h.observe
    · rw [step_of_no_switch hrun (by simpa using hs)] at hmem
      rw [hreport _ _ (fun p t u m => List.not_mem_nil) hmem]
      exact h.observe

end MrftEngine

/-! ### The whole calculation -/

open MrftEngine

variable [IsStrictOrderedRing K]

/-- **Units and signs of the PV do not matter.**  With every PV replaced by `a * pv + b`, and the
direction reversed when `a` is negative, every step returns the same actions up to the change of
units, holds the same MV after the same number of switches, and a completed run measures the same
period, frequency and percentage amplitude and gives the same tuning results. -/
theorem run_equivariant (ar : IntArith) (config : LoopConfig K) (direction : ControllerDirection)
    (beta : K) (initial : InitialReadings K) (startTime : UtcTime) (ticks : ℕ → Tick K)
    (a b : K) (ha : a ≠ 0) :
    let engine := MrftEngine.new ar config direction beta initial startTime
    let engine' := MrftEngine.new ar config (direction.mapPv a) beta (initial.mapPv a b) startTime
    let ticks' := fun k => (ticks k).mapPv a b
    (∀ i, engine'.actionsAt ar ticks' i
      = (engine.actionsAt ar ticks i).map (Action.mapPv a b)) ∧
    (∀ i, (engine'.stateAfter ar ticks' i).mvValueCurrent
        = (engine.stateAfter ar ticks i).mvValueCurrent ∧
      (engine'.stateAfter ar ticks' i).counterAllSwitches
        = (engine.stateAfter ar ticks i).counterAllSwitches) ∧
    ∀ i peaks troughs switchTimes mvSignInit,
      Action.complete peaks troughs switchTimes mvSignInit ∈ engine.actionsAt ar ticks i →
      ∀ pvRange pvRange' : PvRange K,
        pvRange'.high - pvRange'.low = |a| * (pvRange.high - pvRange.low) →
        let measured := measureOscillation peaks troughs switchTimes mvSignInit direction config
          pvRange
        let measured' := measureOscillation
          ((if a < 0 then troughs else peaks).map (affine a b))
          ((if a < 0 then peaks else troughs).map (affine a b)) switchTimes mvSignInit
          (direction.mapPv a) config pvRange'
        (∀ panic, measured = .error panic → ∃ panic', measured' = .error panic') ∧
        ∀ osc, measured = .ok osc → ∃ osc', measured' = .ok osc' ∧
          osc'.periodMinutes = osc.periodMinutes ∧ osc'.frequency = osc.frequency ∧
          osc'.pvAmpPercent = osc.pvAmpPercent ∧
          ∀ level, calculateTuningResult osc' config level
            = calculateTuningResult osc config level := by
  intro engine engine' ticks'
  have hengine : engine' = engine.mapPv a b := new_mapPv config direction beta initial startTime
  have hm : engine.actionMultiplier = 1 ∨ engine.actionMultiplier = -1 :=
    direction.actionMultiplier_eq
  rw [hengine]
  refine ⟨actionsAt_mapPv ha hm ticks, ?_, ?_⟩
  · intro i
    rw [stateAfter_mapPv ha hm ticks i]
    exact ⟨rfl, rfl⟩
  · intro i peaks troughs switchTimes mvSignInit hmem pvRange pvRange' hspan measured measured'
    have hsigns : SignInv engine := Or.inl rfl
    have hsign := (hsigns.stateAfter ticks i).complete_mem hmem
    have hmeasured := measureOscillation_mapPv (b := b) ha peaks troughs switchTimes hsign
      direction config hspan
    constructor
    · intro panic herror
      refine ⟨if a < 0 then panic.mirror else panic, hmeasured.trans ?_⟩
      change measureOscillation _ _ _ _ _ _ _ = _ at herror
      rw [herror]
    · intro osc hok
      refine ⟨{ osc with pvAmpRaw := XNum.fin |a| * osc.pvAmpRaw }, hmeasured.trans ?_, rfl, rfl,
        rfl, fun level => rfl⟩
      change measureOscillation _ _ _ _ _ _ _ = _ at hok
      rw [hok]

/-- The default flow loop in reversed units of half the size: the same first relay step. -/
theorem run_equivariant_flow :
    (MrftEngine.new .machine flowLoopConfig .direct (f32 0.433) ⟨-93, 50, 0, 100⟩ 0).actionsAt
      .machine (fun k => (swingingTicks k).mapPv (-2) 7) 0 = [.writeMv 60] := by
  have hmapped := (run_equivariant .machine flowLoopConfig .reverse (f32 0.433) midRangeReadings 0
    swingingTicks (-2) 7 (by decide)).1 0
  have hdirection : ControllerDirection.reverse.mapPv (-2 : ℚ) = .direct := by decide
  have hinitial : midRangeReadings.mapPv (-2) 7 = ⟨-93, 50, 0, 100⟩ := by decide +kernel
  have hfirst : (MrftEngine.new .machine flowLoopConfig .reverse (f32 0.433) midRangeReadings
      0).actionsAt .machine swingingTicks 0 = [.writeMv 60] := by decide +kernel
  rw [hdirection, hinitial, hfirst] at hmapped
  exact hmapped

end Bhtune
